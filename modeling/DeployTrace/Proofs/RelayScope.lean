/-
  DeployTrace/Proofs/RelayScope.lean --- which binding feeds a value that is one variable.

  WHAT THIS FILE IS FOR.  A Helm value `$V` is fed by what the map of the whole workflow binds V to.  The
  job of the Helm step may bind V by itself; that binding counts if it comes first, and it does NOT count
  when a Terraform step of another job binds V before.  Variables are shared among jobs on purpose,
  because a job may use what another one exported.
-/
import DeployTrace.Proofs.Bindings
import DeployTrace.Proofs.Memory
import DeployTrace.Proofs.References

set_option autoImplicit false

namespace DeployTrace

/-! ## The candidate for a value -/

section

variable {ctx : Context} {h : HelmStep} {key name : String}

end

/-! ## The job of a binding -/

/-- What the first Terraform steps bind is what the workflow binds. -/
theorem get?_envBindings_of_steps {ctx : Context} {name : String} {before after : List TerraformStep}
    (hsplit : ctx.terraformSteps = before ++ after) {g : EnvBinding}
    (hg : Entries.get? (before.foldl bindStep []) name = some g) :
    Entries.get? (envBindings ctx) name = some g := by
  have hsteps : Entries.get? (ctx.terraformSteps.foldl bindStep []) name = some g := by
    rw [hsplit, List.foldl_append]
    exact get?_foldl_bindStep_of_some after hg
  rw [get?_envBindings, hsteps, Option.some_or]

/-! ## Which binding counts -/

section

variable {workflow : Table} {file jobId name : String} {own : EnvBinding}

end

/-! ### A variable in an environment table -/

end DeployTrace
