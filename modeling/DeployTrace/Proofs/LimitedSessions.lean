/-
  DeployTrace/Proofs/LimitedSessions.lean --- sessions on a machine with limits.

  WHAT THIS FILE IS FOR.  Under limits a session answers as it does without, or not at all.  When it does
  not is said by two conditions on the workflow: that it can be named, which every answer takes, and that it
  can be read, which an answer takes that is not remembered.  With the two, what is known of sessions that
  write everything carries over (`Session.detectWithin_eq_ok_iff`), and so does what they remember.

  DETECTORS.  The detectors of such a session may fail, and then find nothing.  Where nothing is refused they
  find what they find without limits, and so does the session (`detectFlowsWithin_eq_detectFlows`).
-/
import DeployTrace.Limited.Detection
import DeployTrace.Proofs.Sessions

set_option autoImplicit false

namespace DeployTrace

/-! ## Workflows that are named and read -/

/-- The name of a workflow in a file can be written. -/
def Limits.Names (l : Limits) (workflow : Tree) (file : String) : Prop :=
  l.AdmitsAll (fingerprintWritings workflow file)

instance (l : Limits) (workflow : Tree) (file : String) : Decidable (l.Names workflow file) :=
  inferInstanceAs (Decidable (l.AdmitsAll _))

/-- What is read of a workflow can be written, if the workflow is a table. -/
def Limits.Reads (l : Limits) (workflow : Tree) : Prop :=
  ∀ table, workflow = .table table → l.AdmitsAll (contextWritings table)

section

variable {l : Limits} {workflow : Tree} {table : Table} {file : String} {ctx : Context}

theorem Limits.reads_table_iff : l.Reads (.table table) ↔ l.AdmitsAll (contextWritings table) :=
  ⟨fun reads => reads table rfl, fun all other heq => by cases heq; exact all⟩

/-- The canonical text is in ASCII, so that of the two parts of the text only the file name matters. -/
theorem Limits.names_iff : l.Names workflow file ↔ l.Admits (.canonical workflow) ∧ l.Admits (.encoded file) := by
  have separator : l.Admits (.encoded "\n") := by
    refine admits_encoded_iff.mpr fun c hc => l.ascii c ?_
    cases List.mem_singleton.mp hc
    decide
  have canonical : l.Admits (.encoded (Json.canonical workflow)) := by
    refine admits_encoded_iff.mpr fun c hc => l.ascii c ?_
    have printed := (isPrinted_canonical workflow c hc).2
    omega
  unfold Names fingerprintWritings AdmitsAll
  rw [List.forall_mem_cons, List.forall_mem_singleton, fingerprintText, admits_encoded_append,
    admits_encoded_append]
  simp only [separator, canonical, and_true]

/-- Only a table is refused, and for something that is to be written of it. -/
theorem Limits.exists_fault_of_not_reads (h : ¬ l.Reads workflow) :
    ∃ table fault, workflow = .table table ∧ l.writeAll (contextWritings table) = .error fault := by
  cases workflow with
  | leaf value => exact absurd (fun _ heq => by cases heq) h
  | list items => exact absurd (fun _ heq => by cases heq) h
  | table table =>
      obtain ⟨fault, hfault⟩ := exists_fault_of_not_admitsAll fun all => h (reads_table_iff.mpr all)
      exact ⟨table, fault, rfl, hfault⟩

theorem Context.ofWorkflowWithin_of_reads (reads : l.Reads workflow) :
    ofWorkflowWithin l workflow file = ofWorkflow workflow file := by
  cases workflow with
  | leaf value => rfl
  | list items => rfl
  | table table =>
      show ((l.writeAll (contextWritings table)).mapError _ >>= fun _ => _) = _
      rw [Limits.writeAll_eq_ok_iff.mpr (reads table rfl)]
      rfl

theorem Context.exists_fault_of_not_table (htable : ∀ table, workflow ≠ .table table) :
    ∃ fault, ofWorkflowWithin l workflow file = .error fault := by
  cases workflow with
  | leaf value => exact ⟨_, rfl⟩
  | list items => exact ⟨_, rfl⟩
  | table table => exact absurd rfl (htable table)

theorem Context.ofWorkflowWithin_of_refused {fault : WriteFault}
    (h : l.writeAll (contextWritings table) = .error fault) :
    ofWorkflowWithin l (.table table) file = .error (.unwritten fault) := by
  show ((l.writeAll (contextWritings table)).mapError _ >>= fun _ => _) = _
  rw [h]
  rfl

end

/-! ## One call -/

namespace Session

variable {l : Limits} {s after : Session} {workflow : Tree} {file : String} {flows : List Flow}

theorem detectWithin_of_refused {fault : WriteFault} (hnull : workflow ≠ .null)
    (h : l.writeAll (fingerprintWritings workflow file) = .error fault) :
    s.detectWithin l workflow file = .error (.unwritten fault) := by
  unfold detectWithin
  split
  · exact absurd rfl hnull
  · rw [h]
    rfl

theorem detectWithin_of_names (hnull : workflow ≠ .null) (named : l.Names workflow file) :
    s.detectWithin l workflow file =
      if s.remembered? (fingerprint s.digest workflow file) = none then
        (Context.ofWorkflowWithin l workflow file).mapError .workflow >>= fun _ => s.detect workflow file
      else s.detect workflow file := by
  unfold detectWithin
  split
  · exact absurd rfl hnull
  · rw [Limits.writeAll_eq_ok_iff.mpr named]
    simp only [Option.isNone_iff_eq_none]
    rfl

/-- With what is remembered nothing is read. -/
theorem detectWithin_of_remembered (named : l.Names workflow file)
    (hmem : s.remembered? (fingerprint s.digest workflow file) ≠ none) :
    s.detectWithin l workflow file = s.detect workflow file := by
  by_cases hnull : workflow = .null
  · subst hnull
    rfl
  · rw [detectWithin_of_names hnull named, if_neg hmem]

/-- What can be named and read is answered as without limits. -/
theorem detectWithin_of_reads (named : l.Names workflow file) (reads : l.Reads workflow) :
    s.detectWithin l workflow file = s.detect workflow file := by
  by_cases hmem : s.remembered? (fingerprint s.digest workflow file) = none
  · by_cases hnull : workflow = .null
    · subst hnull
      rfl
    · rw [detectWithin_of_names hnull named, if_pos hmem, Context.ofWorkflowWithin_of_reads reads]
      cases hctx : Context.ofWorkflow workflow file with
      | ok ctx => rfl
      | error fault =>
          unfold detect compute
          split
          · exact absurd rfl hnull
          · simp only [hmem, hctx]
            rfl
  · exact detectWithin_of_remembered named hmem

theorem detectWithin_of_unread {table : Table} {fault : WriteFault} (named : l.Names (.table table) file)
    (hnew : s.remembered? (fingerprint s.digest (.table table) file) = none)
    (h : l.writeAll (contextWritings table) = .error fault) :
    s.detectWithin l (.table table) file = .error (.workflow (.unwritten fault)) := by
  rw [detectWithin_of_names (by simp) named, if_pos hnew, Context.ofWorkflowWithin_of_refused h]
  rfl

/-- An answer under limits is the one without, and all could be written that it took. -/
theorem detectWithin_eq_ok_iff {result : List Flow × Session} :
    s.detectWithin l workflow file = .ok result ↔ s.detect workflow file = .ok result ∧
      l.Names workflow file ∧
      (s.remembered? (fingerprint s.digest workflow file) = none → l.Reads workflow) := by
  by_cases named : l.Names workflow file
  · by_cases needed : s.remembered? (fingerprint s.digest workflow file) = none → l.Reads workflow
    · have same : s.detectWithin l workflow file = s.detect workflow file := by
        by_cases hmem : s.remembered? (fingerprint s.digest workflow file) = none
        · exact detectWithin_of_reads named (needed hmem)
        · exact detectWithin_of_remembered named hmem
      rw [same]
      exact ⟨fun h => ⟨h, named, needed⟩, And.left⟩
    · obtain ⟨hnew, hreads⟩ := Classical.not_imp.mp needed
      obtain ⟨table, fault, rfl, hfault⟩ := Limits.exists_fault_of_not_reads hreads
      rw [detectWithin_of_unread named hnew hfault]
      exact iff_of_false (by simp) fun h => needed h.2.2
  · by_cases hnull : workflow = .null
    · subst hnull
      exact iff_of_false (fun h => by cases h) fun h => named h.2.1
    · obtain ⟨fault, hfault⟩ := Limits.exists_fault_of_not_admitsAll named
      rw [detectWithin_of_refused hnull hfault]
      exact iff_of_false (by simp) fun h => named h.2.1

/-- The answer of a session under limits to one call. -/
def answerWithin (l : Limits) (s : Session) (workflow : Tree) (file : String) :
    Except SessionFault (List Flow) :=
  (s.detectWithin l workflow file).map (·.1)

theorem answerWithin_eq_ok_iff : s.answerWithin l workflow file = .ok flows ↔
    s.answer workflow file = .ok flows ∧ l.Names workflow file ∧
      (s.remembered? (fingerprint s.digest workflow file) = none → l.Reads workflow) := by
  have succeeds : ∀ {answer : Except SessionFault (List Flow × Session)},
      answer.map (·.1) = .ok flows ↔ ∃ after, answer = .ok (flows, after) := by
    intro answer
    cases answer with
    | error fault => simp [Except.map]
    | ok result => simp [Except.map, Prod.ext_iff]
  unfold answerWithin answer
  rw [succeeds, succeeds]
  simp only [detectWithin_eq_ok_iff, exists_and_right]

/-- There is no answer where there is none without limits, or something is refused. -/
theorem answerWithin_eq_error_iff : (∃ fault, s.answerWithin l workflow file = .error fault) ↔
    (∃ fault, s.answer workflow file = .error fault) ∨ ¬ l.Names workflow file ∨
      (¬ l.Reads workflow ∧ s.remembered? (fingerprint s.digest workflow file) = none) := by
  have fails : ∀ {answer : Except SessionFault (List Flow)},
      (∃ fault, answer = .error fault) ↔ ¬ ∃ flows, answer = .ok flows := by
    intro answer
    cases answer <;> simp
  simp only [fails, answerWithin_eq_ok_iff, exists_and_right, Classical.not_and_iff_not_or_not,
    Classical.not_imp, and_comm]

/-! ## Calls -/

/-- The session after a call under limits; a call that fails changes nothing. -/
def callWithin (l : Limits) (s : Session) : SessionCall → Session
  | .detect workflow file =>
    match s.detectWithin l workflow file with
    | .ok (_, after) => after
    | .error _ => s
  | .clear => s.clear

/-- The session after some calls under limits. -/
def afterWithin (l : Limits) (s : Session) (calls : List SessionCall) : Session :=
  calls.foldl (callWithin l) s

section

variable {origin : Session} {recent : List SessionCall}

theorem Remembers.answerWithin_of_new {first : Tree → String → Except SessionFault (List Flow)}
    (new : origin.IsNew) (h : s.Remembers origin first recent)
    (hnew : s.remembered? (fingerprint s.digest workflow file) = none) :
    s.answerWithin l workflow file = origin.answerWithin l workflow file := by
  have hfirst := new.remembered? (fingerprint origin.digest workflow file)
  by_cases hnull : workflow = .null
  · subst hnull
    rfl
  · unfold answerWithin
    by_cases named : l.Names workflow file
    · by_cases reads : l.Reads workflow
      · rw [detectWithin_of_reads named reads, detectWithin_of_reads named reads]
        exact h.answer_of_new new hnew
      · obtain ⟨table, fault, rfl, hfault⟩ := Limits.exists_fault_of_not_reads reads
        rw [detectWithin_of_unread named hnew hfault, detectWithin_of_unread named hfirst hfault]
    · obtain ⟨fault, hfault⟩ := Limits.exists_fault_of_not_admitsAll named
      rw [detectWithin_of_refused hnull hfault, detectWithin_of_refused hnull hfault]

/-- One step: a call under limits keeps the invariant. -/
theorem Remembers.callWithin (new : origin.IsNew) (h : s.Remembers origin (origin.answerWithin l) recent)
    (c : SessionCall) :
    (s.callWithin l c).Remembers origin (origin.answerWithin l) (recentAfter recent c) := by
  cases c with
  | clear => exact h.cleared
  | detect workflow file =>
      unfold Session.callWithin
      simp only
      cases hdetect : s.detectWithin l workflow file with
      | error fault => exact h.mono (List.subset_append_left recent [.detect workflow file])
      | ok result =>
          refine h.after_detect (detectWithin_eq_ok_iff.mp hdetect).1 fun hnew => ?_
          rw [← h.answerWithin_of_new new hnew]
          exact congrArg (Except.map Prod.fst) hdetect

/-- After any calls under limits, what is remembered was first answered under limits. -/
theorem IsNew.afterWithin_remembers (new : origin.IsNew) (calls : List SessionCall) :
    (origin.afterWithin l calls).Remembers origin (origin.answerWithin l) (sinceClear calls) :=
  new.foldl_remembers (fun h c => h.callWithin new c) calls

/-- An answer is the first one to the workflow, or the first one to a workflow of the same canonical text. -/
theorem Remembers.answerWithin_first_or_shared (new : origin.IsNew)
    (h : s.Remembers origin (origin.answerWithin l) recent)
    (separates : origin.digest.Separates recent workflow file) :
    s.answerWithin l workflow file = origin.answerWithin l workflow file ∨
      ∃ v, .detect v file ∈ recent ∧ Json.canonical v = Json.canonical workflow ∧
        s.answerWithin l workflow file = origin.answerWithin l v file := by
  cases hmem : s.remembered? (fingerprint s.digest workflow file) with
  | none => exact Or.inl (h.answerWithin_of_new new hmem)
  | some flows =>
      by_cases hnull : workflow = .null
      · subst hnull
        exact Or.inl rfl
      · by_cases named : l.Names workflow file
        · obtain ⟨v, hcall, hcanonical, hfirst⟩ := h.of_remembered_apart separates hmem
          refine Or.inr ⟨v, hcall, hcanonical, ?_⟩
          unfold answerWithin at hfirst ⊢
          rw [hfirst, detectWithin_of_remembered named (by simp [hmem]), detect_of_remembered hnull hmem]
          rfl
        · obtain ⟨fault, hfault⟩ := Limits.exists_fault_of_not_admitsAll named
          left
          unfold answerWithin
          rw [detectWithin_of_refused hnull hfault, detectWithin_of_refused hnull hfault]

end

end Session

/-! ## Detectors -/

section

variable {l : Limits} {digest : Digest} {options : DetectorOptions} {d : Detector} {ctx : Context}
variable {found : List Flow} {workflow : Tree} {file : String}

/-- A detector whose flows can all be written finds them under limits as well. -/
theorem Detector.detect_within_of_admits (hfound : d.detect ctx = .ok found)
    (admits : l.AdmitsAll (detectorWritings ctx d.pattern found)) : (d.within l).detect ctx = .ok found := by
  show (d.detect ctx >>= fun flows => _) = _
  rw [hfound]
  show ((l.writeAll (detectorWritings ctx d.pattern found)).mapError _ >>= fun _ => _) = _
  rw [Limits.writeAll_eq_ok_iff.mpr admits]
  rfl

/-- A detector of which something is refused fails with the first refusal. -/
theorem Detector.detect_within_of_refused {fault : WriteFault} (hfound : d.detect ctx = .ok found)
    (hfault : l.writeAll (detectorWritings ctx d.pattern found) = .error fault) :
    (d.within l).detect ctx = .error (.record (.unwritten fault)) := by
  show (d.detect ctx >>= fun flows => _) = _
  rw [hfound]
  show ((l.writeAll (detectorWritings ctx d.pattern found)).mapError _ >>= fun _ => _) = _
  rw [hfault]
  rfl

theorem Detector.detect_within_of_failed {fault : DetectorFault} (hfault : d.detect ctx = .error fault) :
    (d.within l).detect ctx = .error fault := by
  show (d.detect ctx >>= fun flows => _) = _
  rw [hfault]
  rfl

/-- What a detector finds under limits it also finds without. -/
theorem Detector.detect_of_within (h : (d.within l).detect ctx = .ok found) : d.detect ctx = .ok found := by
  cases hfound : d.detect ctx with
  | error fault =>
      rw [detect_within_of_failed hfound] at h
      cases h
  | ok own =>
      by_cases admits : l.AdmitsAll (detectorWritings ctx d.pattern own)
      · rwa [detect_within_of_admits hfound admits] at h
      · obtain ⟨fault, hfault⟩ := Limits.exists_fault_of_not_admitsAll admits
        rw [detect_within_of_refused hfound hfault] at h
        cases h

/-- What detection writes of a workflow in a file can all be written. -/
structure Limits.Suffice (l : Limits) (digest : Digest) (workflow : Tree) (file : String) : Prop where
  names : l.Names workflow file
  reads : l.Reads workflow
  finds : ∀ table, workflow = .table table → ∀ d ∈ detectors digest, ∀ found,
    d.detect (.ofTable table file) = .ok found →
    l.AdmitsAll (detectorWritings (.ofTable table file) d.pattern found)

theorem foundFlows_within {detectors : List Detector} (admits : ∀ d ∈ detectors, ∀ found,
      d.detect ctx = .ok found → l.AdmitsAll (detectorWritings ctx d.pattern found)) :
    foundFlows options (detectors.map (·.within l)) ctx = foundFlows options detectors ctx := by
  unfold foundFlows
  rw [List.map_map]
  refine List.map_congr_left fun d hd => ?_
  have same : (d.within l).detect ctx = d.detect ctx := by
    cases hfound : d.detect ctx with
    | ok found => exact Detector.detect_within_of_admits hfound (admits d hd found hfound)
    | error fault => exact Detector.detect_within_of_failed hfound
  simp only [Function.comp_apply, same]
  rfl

theorem startWithin_isNew : (Session.startWithin l digest options).IsNew :=
  ⟨rfl, (by decide : 0 < standardCapacity)⟩

theorem detectFlowsWithin_of_reads (names : l.Names workflow file) (reads : l.Reads workflow) :
    detectFlowsWithin l digest options workflow file =
      (Session.startWithin l digest options).answer workflow file := by
  unfold detectFlowsWithin
  rw [Session.detectWithin_of_reads names reads]
  rfl

/-- Where the limits suffice they make no difference. -/
theorem detectFlowsWithin_eq_detectFlows (suffice : l.Suffice digest workflow file) :
    detectFlowsWithin l digest options workflow file = detectFlows digest options workflow file := by
  rw [detectFlowsWithin_of_reads suffice.names suffice.reads]
  by_cases htable : ∀ table, workflow ≠ .table table
  · rw [startWithin_isNew.answer_of_not_table htable, detectFlows_of_not_table htable]
  · obtain ⟨table, rfl⟩ : ∃ table, workflow = .table table := by simpa using htable
    rw [startWithin_isNew.answer_table, detectFlows_table]
    show Except.ok (flowsInContext options (detectorsWithin l digest) _) = _
    unfold flowsInContext detectorsWithin
    rw [foundFlows_within (suffice.finds table rfl)]

theorem Limits.unbounded_suffices : unbounded.Suffice digest workflow file where
  names w _ := admits_unbounded w
  reads _ _ w _ := admits_unbounded w
  finds _ _ _ _ _ _ w _ := admits_unbounded w

end

end DeployTrace
