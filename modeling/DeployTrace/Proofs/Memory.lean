/-
  DeployTrace/Proofs/Memory.lean --- answers from memory.

  WHAT THIS FILE IS FOR.  A session's memory does not see the order of keys: workflows that differ only
  in that have one canonical text and so one name.  Detection does see it, since of several bindings of
  a variable the first counts.  So an answer from memory is not always the answer that a new session
  would give to the same workflow.  What holds is proved here for every history of calls: the answer is
  that of a new session, to this workflow or to one of the same canonical text that was asked about with
  the same file name since the memory was last cleared.
-/
import DeployTrace.Proofs.Sessions

set_option autoImplicit false

namespace DeployTrace

section

variable {digest : Digest} {options : DetectorOptions} {calls : List SessionCall}
variable {workflow : Tree} {file : String}

/-- After any calls, an answer is the fresh answer to the workflow, or the fresh answer to a workflow of
the same canonical text that was asked about with the same file name since the last clearing. -/
theorem Session.answer_fresh_or_shared (separates : digest.Separates calls workflow file) :
    ((start digest options).after calls).answer workflow file =
        detectFlows digest options workflow file ∨
      ∃ v, .detect v file ∈ sinceClear calls ∧ Json.canonical v = Json.canonical workflow ∧
        ((start digest options).after calls).answer workflow file = detectFlows digest options v file := by
  have new := start_isNew digest options
  have inv := new.after_remembers calls
  generalize (start digest options).after calls = s at inv ⊢
  cases hmem : s.remembered? (fingerprint s.digest workflow file) with
  | none => exact Or.inl (inv.answer_of_new new hmem)
  | some flows =>
      by_cases hnull : workflow = .null
      · subst hnull
        exact Or.inl rfl
      · obtain ⟨v, hcall, hcanonical, hfresh⟩ := inv.of_remembered_apart separates.sinceClear hmem
        refine Or.inr ⟨v, hcall, hcanonical, ?_⟩
        unfold answer
        rw [detect_of_remembered hnull hmem]
        exact hfresh.symm

end

/-! ## Two orders of the same jobs -/

/-- The digest that leaves texts as they are. -/
def plainDigest : Digest := ⟨id, id⟩

/-- A job that runs one line. -/
def oneLineJob (line : String) : Tree := .table [(.text "script", .text line)]

/-- A job that binds a variable to an output. -/
def binderJob : Scalar × Tree := (.text "a", oneLineJob "V=$(terraform output x)")

/-- A job that binds the same variable to another output and hands it to Helm. -/
def deployJob : Scalar × Tree :=
  (.text "b", oneLineJob "V=$(terraform output y); helm --set k=$V")

/-- The two jobs, the binder first. -/
def binderFirst : Tree := .table [binderJob, deployJob]

/-- The two jobs, the binder last. -/
def binderLast : Tree := .table [deployJob, binderJob]

/-- The sources of the flows of an answer. -/
def answerSources (answer : Except SessionFault (List Flow)) : List (String × String) :=
  (answer.toOption.getD []).map fun f => (f.source.jobId, f.source.name)

/-- A session of one earlier call of a workflow whose jobs stand in another order answers with the flow
of the other order. -/
theorem memory_not_transparent :
    ¬ ∀ (digest : Digest) (options : DetectorOptions) (calls : List SessionCall) (workflow : Tree)
      (file : String), Function.Injective digest.full →
      ((Session.start digest options).after calls).answer workflow file =
        detectFlows digest options workflow file := by
  intro transparent
  have same := transparent plainDigest {} [.detect binderFirst "ci.yml"] binderLast "ci.yml"
    Function.injective_id
  have first : answerSources (((Session.start plainDigest {}).after
      [.detect binderFirst "ci.yml"]).answer binderLast "ci.yml") = [("a", "x")] := by decide +kernel
  have fresh : answerSources (detectFlows plainDigest {} binderLast "ci.yml") = [("b", "y")] := by
    decide +kernel
  rw [same, fresh] at first
  exact absurd first (by decide)

/-- Calls about workflows without jobs, before and after the memory is cleared. -/
def clearedCalls : List SessionCall := [.detect (.table []) "ci.yml", .clear, .detect .null "ci.yml"]

/-- Calls about the two orders, one of them before the memory is cleared and the other after. -/
def sharedCalls : List SessionCall := [.detect binderLast "ci.yml", .clear, .detect binderFirst "ci.yml"]

/-- A workflow without jobs is answered about afresh, and one whose jobs were last given in the other order
from memory. -/
theorem Session.answer_fresh_or_shared_cleared :
    (plainDigest.Separates clearedCalls (.table []) "ci.yml" ∧
      (((start plainDigest {}).after clearedCalls).answer (.table []) "ci.yml" =
          detectFlows plainDigest {} (.table []) "ci.yml" ∨
        ∃ v, .detect v "ci.yml" ∈ sinceClear clearedCalls ∧
          Json.canonical v = Json.canonical (.table []) ∧
          ((start plainDigest {}).after clearedCalls).answer (.table []) "ci.yml" =
            detectFlows plainDigest {} v "ci.yml")) ∧
    (plainDigest.Separates sharedCalls binderLast "ci.yml" ∧
      answerSources (((start plainDigest {}).after sharedCalls).answer binderLast "ci.yml") = [("a", "x")] ∧
      (((start plainDigest {}).after sharedCalls).answer binderLast "ci.yml" =
          detectFlows plainDigest {} binderLast "ci.yml" ∨
        ∃ v, .detect v "ci.yml" ∈ sinceClear sharedCalls ∧ Json.canonical v = Json.canonical binderLast ∧
          ((start plainDigest {}).after sharedCalls).answer binderLast "ci.yml" =
            detectFlows plainDigest {} v "ci.yml")) := by
  have cleared : plainDigest.Separates clearedCalls (.table []) "ci.yml" := fun _ _ _ htext => htext
  have shared : plainDigest.Separates sharedCalls binderLast "ci.yml" := fun _ _ _ htext => htext
  exact ⟨⟨cleared, answer_fresh_or_shared cleared⟩,
    ⟨shared, by decide +kernel, answer_fresh_or_shared shared⟩⟩

end DeployTrace
