/-
  DeployTrace/Proofs/Safety.lean --- detection fails only where it must.

  WHAT THIS FILE IS FOR.  A workflow is a table of any shape, and nothing in it is checked before it is
  read.  Still no detector fails on it but for something that cannot be written, and every flow found is
  well formed.  A call of a session fails exactly when the workflow is no table, or when it cannot be named,
  or when it is not remembered and cannot be read, whatever was called before.  An analysis reports such a
  failure and does not fail itself.
-/
import DeployTrace.Proofs.Detectors
import DeployTrace.Proofs.LimitedSessions
import DeployTrace.Proofs.Memory

set_option autoImplicit false

namespace DeployTrace

/-! ## Answers about tables -/

namespace Session

variable {l : Limits} {s origin : Session} {first : Tree → String → Except SessionFault (List Flow)}
variable {recent calls : List SessionCall} {workflow : Tree} {file : String}

/-- After any calls, a table has an answer where everything is written. -/
theorem Remembers.exists_answer (h : s.Remembers origin first recent) (table : Table) (file : String) :
    ∃ flows, s.answer (.table table) file = .ok flows := by
  unfold answer
  cases hmem : s.remembered? (fingerprint s.digest (.table table) file) with
  | some flows => exact ⟨flows, by rw [detect_of_remembered (by simp) hmem]; rfl⟩
  | none =>
      obtain ⟨cache, -, hdetect⟩ := detect_of_new h.room hmem
      exact ⟨_, by rw [hdetect]; rfl⟩

/-- What is no table is never remembered, since its canonical text is that of no table. -/
theorem Remembers.answer_of_not_table (new : origin.IsNew)
    (h : s.Remembers origin (origin.answerWithin l) recent)
    (separates : origin.digest.Separates recent workflow file) (htable : ∀ table, workflow ≠ .table table) :
    s.answer workflow file = .error (tableFault workflow) := by
  cases hmem : s.remembered? (fingerprint s.digest workflow file) with
  | none => rw [h.answer_of_new new hmem, new.answer_of_not_table htable]
  | some flows =>
      obtain ⟨v, hcall, hcanonical, hfirst⟩ := h.of_remembered_apart separates hmem
      by_cases hv : ∀ table, v ≠ .table table
      · have hanswer := (answerWithin_eq_ok_iff.mp hfirst).1
        rw [new.answer_of_not_table hv] at hanswer
        cases hanswer
      · obtain ⟨table, rfl⟩ : ∃ table, v = .table table := by simpa using hv
        obtain ⟨own, hown⟩ := isTable_of_canonical_eq hcanonical.symm
        exact absurd hown (htable own)

/-- A call fails exactly when the workflow is no table, or something is refused that the call takes. -/
theorem IsNew.afterWithin_fails_iff (new : origin.IsNew)
    (separates : origin.digest.Separates calls workflow file) :
    let s := origin.afterWithin l calls
    (∃ fault, s.answerWithin l workflow file = .error fault) ↔
      (∀ table, workflow ≠ .table table) ∨ ¬ l.Names workflow file ∨
        (¬ l.Reads workflow ∧ s.remembered? (fingerprint origin.digest workflow file) = none) := by
  intro s
  have inv : s.Remembers origin (origin.answerWithin l) (sinceClear calls) := new.afterWithin_remembers calls
  rw [answerWithin_eq_error_iff, inv.digest_eq]
  refine or_congr_left ⟨?_, fun htable => ⟨_, inv.answer_of_not_table new separates.sinceClear htable⟩⟩
  rintro ⟨fault, hfault⟩ table rfl
  obtain ⟨flows, hflows⟩ := inv.exists_answer table file
  rw [hflows] at hfault
  cases hfault

end Session

/-! ## Analyses -/

namespace Session

variable {l : Limits} {s after : Session} {workflow : Tree} {file : String} {ctx : Context}

/-- The analysis of what cannot be read. -/
theorem analyzeWithin_of_unread {fault : WorkflowFault}
    (h : Context.ofWorkflowWithin l workflow file = .error fault) : s.analyzeWithin l workflow file =
      ({ flows := [], summary := summarize [] none, options := s.options,
         errors := [detectionError fault.message] }, s) := by
  unfold analyzeWithin
  rw [h]

/-- The analysis of what is answered. -/
theorem analyzeWithin_of_answered {flows : List Flow}
    (hctx : Context.ofWorkflowWithin l workflow file = .ok ctx)
    (h : s.detectWithin l workflow file = .ok (flows, after)) : s.analyzeWithin l workflow file =
      ({ flows := flows, summary := summarize flows (some ctx), options := s.options,
         warnings := warnings flows ctx }, after) := by
  unfold analyzeWithin
  rw [hctx]
  simp only [h]

/-- The analysis of what is read but not answered. -/
theorem analyzeWithin_of_failed {fault : SessionFault}
    (hctx : Context.ofWorkflowWithin l workflow file = .ok ctx)
    (h : s.detectWithin l workflow file = .error fault) : s.analyzeWithin l workflow file =
      ({ flows := [], summary := summarize [] (some ctx), options := s.options,
         errors := [detectionError fault.message], warnings := warnings [] ctx }, s) := by
  unfold analyzeWithin
  rw [hctx]
  simp only [h]

/-- An analysis without errors has the flows of the answer, and one with errors has none. -/
theorem flows_analyzeWithin :
    let a := (s.analyzeWithin l workflow file).1
    (a.errors = [] → s.answerWithin l workflow file = .ok a.flows) ∧ (a.errors ≠ [] → a.flows = []) := by
  unfold answerWithin
  cases hctx : Context.ofWorkflowWithin l workflow file with
  | error fault => simp [analyzeWithin_of_unread hctx]
  | ok ctx =>
      cases hdetect : s.detectWithin l workflow file with
      | error fault => simp [analyzeWithin_of_failed hctx hdetect]
      | ok result =>
          obtain ⟨flows, after⟩ := result
          simp [analyzeWithin_of_answered hctx hdetect, Except.map]

/-- Where tables have answers, an analysis has errors exactly when the workflow is no table or something is
refused. -/
theorem errors_analyzeWithin_iff
    (answers : ∀ (table : Table) (file : String), ∃ flows, s.answer (.table table) file = .ok flows) :
    (s.analyzeWithin l workflow file).1.errors ≠ [] ↔
      (∀ table, workflow ≠ .table table) ∨ ¬ l.Names workflow file ∨ ¬ l.Reads workflow := by
  by_cases htable : ∀ table, workflow ≠ .table table
  · obtain ⟨fault, hfault⟩ : ∃ fault, Context.ofWorkflowWithin l workflow file = .error fault :=
      Context.exists_fault_of_not_table htable
    exact iff_of_true (by simp [analyzeWithin_of_unread hfault]) (Or.inl htable)
  · obtain ⟨table, rfl⟩ : ∃ table, workflow = .table table := by simpa using htable
    by_cases reads : l.Reads (.table table)
    · have hctx : Context.ofWorkflowWithin l (.table table) file = .ok (.ofTable table file) :=
        Context.ofWorkflowWithin_of_reads reads
      by_cases named : l.Names (.table table) file
      · obtain ⟨flows, hflows⟩ := answers table file
        have hanswer := answerWithin_eq_ok_iff.mpr ⟨hflows, named, fun _ => reads⟩
        unfold answerWithin at hanswer
        cases hdetect : s.detectWithin l (.table table) file with
        | error fault => simp [hdetect, Except.map] at hanswer
        | ok result =>
            refine iff_of_false ?_ (by simp [named, reads])
            simp [analyzeWithin_of_answered hctx hdetect]
      · obtain ⟨fault, hfault⟩ := Limits.exists_fault_of_not_admitsAll named
        have hdetect := detectWithin_of_refused (s := s) (by simp) hfault
        exact iff_of_true (by simp [analyzeWithin_of_failed hctx hdetect]) (Or.inr (Or.inl named))
    · obtain ⟨_, fault, heq, hfault⟩ := Limits.exists_fault_of_not_reads reads
      cases heq
      have hctx : Context.ofWorkflowWithin l (.table table) file = .error (.unwritten fault) :=
        Context.ofWorkflowWithin_of_refused hfault
      exact iff_of_true (by simp [analyzeWithin_of_unread hctx]) (Or.inr (Or.inr reads))

end Session

/-! ## Detection -/

/-- However malformed a table is, the flows that a detector finds in it are well formed, and it returns them
unless something is refused that it writes.  After any calls, a session fails exactly when the workflow is no
table or cannot be named, or when it is not remembered and cannot be read.  An analysis always ends, with the
flows of the answer or with an error; the latter exactly when the workflow is no table or cannot be named or
read. -/
theorem detection_safe (l : Limits) (digest : Digest) (options : DetectorOptions) :
    (∀ (workflow : Table) (file : String), ∀ d ∈ detectors digest, ∃ found,
        d.detect (.ofTable workflow file) = .ok found ∧
        (∀ f ∈ found, f.WellFormedIn (.ofTable workflow file) d.pattern) ∧
        (l.AdmitsAll (detectorWritings (.ofTable workflow file) d.pattern found) →
          (d.within l).detect (.ofTable workflow file) = .ok found) ∧
        (¬ l.AdmitsAll (detectorWritings (.ofTable workflow file) d.pattern found) →
          ∃ fault, (d.within l).detect (.ofTable workflow file) = .error (.record (.unwritten fault)))) ∧
    (∀ (calls : List SessionCall) (workflow : Tree) (file : String),
        digest.Separates calls workflow file →
        let s := (Session.startWithin l digest options).afterWithin l calls
        ((∃ fault, s.answerWithin l workflow file = .error fault) ↔
          (∀ table, workflow ≠ .table table) ∨ ¬ l.Names workflow file ∨
            (¬ l.Reads workflow ∧ s.remembered? (fingerprint digest workflow file) = none))) ∧
    (∀ (calls : List SessionCall) (workflow : Tree) (file : String),
        let s := (Session.startWithin l digest options).afterWithin l calls
        let analysis := (s.analyzeWithin l workflow file).1
        (analysis.errors = [] → s.answerWithin l workflow file = .ok analysis.flows) ∧
        (analysis.errors ≠ [] → analysis.flows = []) ∧
        (analysis.errors ≠ [] ↔
          (∀ table, workflow ≠ .table table) ∨ ¬ l.Names workflow file ∨ ¬ l.Reads workflow)) := by
  refine ⟨?_, ?_, ?_⟩
  · intro workflow file d hd
    obtain ⟨found, hfound, wellFormed⟩ :=
      detect_wellFormed (Context.ofTable_consistent workflow file) (mem_sortBy.mp hd)
    refine ⟨found, hfound, wellFormed, Detector.detect_within_of_admits hfound, fun refused => ?_⟩
    obtain ⟨fault, hfault⟩ := Limits.exists_fault_of_not_admitsAll refused
    exact ⟨fault, Detector.detect_within_of_refused hfound hfault⟩
  · intro calls workflow file separates
    exact startWithin_isNew.afterWithin_fails_iff separates
  · intro calls workflow file s analysis
    have inv : s.Remembers _ _ (sinceClear calls) := startWithin_isNew.afterWithin_remembers calls
    exact ⟨Session.flows_analyzeWithin.1, Session.flows_analyzeWithin.2,
      Session.errors_analyzeWithin_iff inv.exists_answer⟩

/-! ### A workflow of little shape -/

/-- A job that stands for nothing, one whose needs and variables are of the wrong kind and whose steps are no
steps but for one, and one that deploys what the step exposes. -/
def malformedWorkflow : Table :=
  [(.text "on", .list [.null]),
    (.text "jobs", .table [
      (.number (.int 7), .text "nothing"),
      (.text "apply", .table [(.text "needs", .number (.int 5)), (.text "env", .list [.null]),
        (.text "steps", .list [.null, .text "make", .table [(.text "id", .list []),
          (.text "run", .text "terraform output x"), (.text "env", .table [(.null, .list [])])]])]),
      (.text "deploy", .table [(.text "needs", .list [.text "ghost", .null, .text "apply"]),
        (.text "steps", .list [.bool true, .table [(.text "with", .text "nothing"),
          (.text "run", .text "helm upgrade w c --set k=$(terraform output x)")]])])])]

/-- Calls about a list and about the workflow in another file. -/
def malformedCalls : List SessionCall :=
  [.detect (.list []) "ci.yml", .detect (.table malformedWorkflow) "other.yml", .detect .null "ci.yml"]

/-- In this workflow the first detector finds a flow, which is well formed, and it is answered about after
calls of which some are refused. -/
theorem detection_safe_malformed :
    (∃ d ∈ detectors plainDigest, ∃ f,
      (d.within .standard).detect (.ofTable malformedWorkflow "ci.yml") = .ok [f] ∧
      f.WellFormedIn (.ofTable malformedWorkflow "ci.yml") .directOutput) ∧
    plainDigest.Separates malformedCalls (.table malformedWorkflow) "ci.yml" ∧
    ¬ ∃ fault, ((Session.startWithin .standard plainDigest {}).afterWithin .standard malformedCalls).answerWithin
      .standard (.table malformedWorkflow) "ci.yml" = .error fault := by
  have separates : plainDigest.Separates malformedCalls (.table malformedWorkflow) "ci.yml" :=
    fun _ _ _ htext => htext
  obtain ⟨detectors, sessions, -⟩ := detection_safe .standard plainDigest {}
  refine ⟨?_, separates, fun failed => ?_⟩
  · have hmem : (DeployTrace.detectors plainDigest)[0] ∈ DeployTrace.detectors plainDigest :=
      List.getElem_mem (by decide)
    obtain ⟨found, hfound, wellFormed, returns, -⟩ := detectors malformedWorkflow "ci.yml" _ hmem
    have hone : ((DeployTrace.detectors plainDigest)[0].detect
        (.ofTable malformedWorkflow "ci.yml")).toOption.map List.length = some 1 := by decide +kernel
    have hwrites : ((DeployTrace.detectors plainDigest)[0].detect
        (.ofTable malformedWorkflow "ci.yml")).toOption.all (fun found => Limits.standard.AdmitsAll
          (detectorWritings (.ofTable malformedWorkflow "ci.yml") .directOutput found)) = true := by
      decide +kernel
    rw [hfound] at hone hwrites
    obtain ⟨f, rfl⟩ := List.length_eq_one_iff.mp (Option.some.inj hone)
    exact ⟨_, hmem, f, returns (of_decide_eq_true hwrites), wellFormed f List.mem_cons_self⟩
  · have named : Limits.standard.Names (.table malformedWorkflow) "ci.yml" :=
      Limits.names_iff.mpr ⟨by decide +kernel, by decide +kernel⟩
    have reads : Limits.standard.Reads (.table malformedWorkflow) :=
      Limits.reads_table_iff.mpr (by decide +kernel)
    have refused := (sessions malformedCalls _ _ separates).mp failed
    simp [named, reads] at refused

/-- A workflow of one job, whose name ends with half of a surrogate pair. -/
def halfNamedWorkflow : Table :=
  [(.text (String.ofList ['a', Text.unitChar 0xD800]), oneLineJob "helm --set k=$(terraform output x)")]

/-- A workflow of one job, which also holds an integer of more digits than are written. -/
def longNumberWorkflow : Table :=
  [(.text "d", oneLineJob "helm --set k=$(terraform output x)"),
    (.text "x", .number (.int (Int.ofNat (Nat.pow 10 digitLimit))))]

/-- On a machine with the usual limits, not every detector returns on every table, and a session does not only
fail on what is no table. -/
theorem detection_fails_unwritten :
    (¬ ∀ (workflow : Table) (file : String), ∀ d ∈ detectorsWithin .standard plainDigest, ∃ flows,
        d.detect (.ofTable workflow file) = .ok flows) ∧
    ¬ ∀ (workflow : Tree) (file : String),
        (∃ fault, detectFlowsWithin .standard plainDigest {} workflow file = .error fault) ↔
          ∀ table, workflow ≠ .table table := by
  constructor
  · intro returns
    have hmem : (detectorsWithin .standard plainDigest)[0] ∈ detectorsWithin .standard plainDigest :=
      List.getElem_mem (by decide)
    obtain ⟨flows, hflows⟩ := returns halfNamedWorkflow "ci.yml" _ hmem
    have fails : ((detectorsWithin .standard plainDigest)[0].detect
        (.ofTable halfNamedWorkflow "ci.yml")).toOption.isNone = true := by decide +kernel
    rw [hflows] at fails
    cases fails
  · intro tables
    have refused : ¬ Limits.standard.Names (.table longNumberWorkflow) "ci.yml" := by decide +kernel
    obtain ⟨fault, hfault⟩ := Limits.exists_fault_of_not_admitsAll refused
    have fails : detectFlowsWithin .standard plainDigest {} (.table longNumberWorkflow) "ci.yml" =
        .error (.unwritten fault) := by
      unfold detectFlowsWithin
      rw [Session.detectWithin_of_refused (by simp) hfault]
      rfl
    exact (tables _ _).mp ⟨_, fails⟩ _ rfl

end DeployTrace
