/-
  DeployTrace/Proofs/FileNames.lean --- detection does not look at the name of the file.

  WHAT THIS FILE IS FOR.  The name of a workflow's file goes into every record: into the setting of a
  flow and into the locations of its ends and of its evidence.  It is never read again.  So a workflow
  has the same flows under every name that can be encoded, but for the name itself: the flows under one name
  are those under another with the name put in its place.

  THE ARGUMENT.  Contexts of one workflow under two names differ in the name only.  Detector by detector,
  the candidates in the one context are those in the other with the name replaced; and what comes after,
  the confidence, the key by which flows are the same, the threshold, the order and the cut, does not
  look at the replaced parts.

  MEMORY.  Answers are remembered under the name of the file, and a session that was asked about the same
  jobs in another order under one name and not under another answers differently under the two.  What holds
  after any calls is that an answer is that to one of the two orders under every name.
-/
import DeployTrace.Proofs.Candidates
import DeployTrace.Proofs.LimitedSessions
import DeployTrace.Proofs.Memory
import DeployTrace.Proofs.Merging
import DeployTrace.Proofs.Ranking

set_option autoImplicit false

namespace DeployTrace

/-! ## Records in another file -/

/-- The location in another file. -/
def Location.inFile (file : String) (l : Location) : Location := { l with file := file }

/-- The item with its location in another file. -/
def Evidence.inFile (file : String) (e : Evidence) : Evidence :=
  { e with location := e.location.map (·.inFile file) }

/-- The source with its location in another file. -/
def OutputSource.inFile (file : String) (s : OutputSource) : OutputSource :=
  { s with location := s.location.map (·.inFile file) }

/-- The target with its location in another file. -/
def ValueTarget.inFile (file : String) (t : ValueTarget) : ValueTarget :=
  { t with location := t.location.map (·.inFile file) }

/-- The flow as one of another file: everything in it that names its file names the other one. -/
def Flow.inFile (file : String) (f : Flow) : Flow :=
  { f with
    source := f.source.inFile file
    target := f.target.inFile file
    evidence := f.evidence.map (·.inFile file)
    setting := { f.setting with workflowFile := file } }

/-- The candidate as one of another file. -/
def Candidate.inFile (file : String) (c : Candidate) : Candidate :=
  { c with
    source := c.source.inFile file
    target := c.target.inFile file
    evidence := c.evidence.map (·.inFile file) }

/-- The context of the same workflow in another file. -/
def Context.inFile (file : String) (ctx : Context) : Context := { ctx with file := file }

theorem Flow.inFile_confidence (file : String) (f : Flow) : (f.inFile file).confidence = f.confidence := rfl

theorem Evidence.inFile_strength (file : String) (e : Evidence) : (e.inFile file).strength = e.strength := rfl

/-! ## Candidates

Only the records hold the name of the file.  What they are made of is looked up in the rest of the
context, which is the same, so that those parts agree by computation (`rfl`). -/

section Candidates

variable (file : String) (ctx : Context)

theorem directCandidate?_inFile (h : HelmStep) (use : DirectUse) :
    directCandidate? (ctx.inFile file) h use = (directCandidate? ctx h use).map (·.inFile file) := by
  have hplace : ∀ step, (placeEvidence ctx h step).map (·.inFile file) = placeEvidence ctx h step := by
    intro step
    unfold placeEvidence
    split
    · split <;> rfl
    · rfl
  unfold directCandidate?
  rw [Option.map_map]
  refine congrArg (Option.map · (outputStep? ctx h use.output)) (funext fun step => ?_)
  simp only [Function.comp_apply, Candidate.inFile, List.map_append, hplace]
  rfl

theorem directCandidates_inFile :
    directCandidates (ctx.inFile file) = (directCandidates ctx).map (·.inFile file) := by
  have huse := fun h => funext (directCandidate?_inFile file ctx h)
  simp only [directCandidates, List.map_flatMap, List.map_filterMap, huse]
  rfl

/-- Evidence of a dependency has no location. -/
theorem dependencyEvidence_inFile (source target : String) (strength : Number) :
    (dependencyEvidence source target strength).inFile file = dependencyEvidence source target strength :=
  rfl

theorem map_inFile_optional (holds : Bool) (e : Evidence) :
    (if holds then [e] else []).map (·.inFile file) = if holds then [e.inFile file] else [] := by
  split <;> rfl

theorem relayCandidate_inFile (h : HelmStep) (key value name : String) (b : EnvBinding) :
    relayCandidate (ctx.inFile file) h key value name b =
      (relayCandidate ctx h key value name b).inFile file := by
  simp only [relayCandidate, Candidate.inFile, List.map_append, map_inFile_optional,
    dependencyEvidence_inFile]
  rfl

theorem relayCandidates_inFile :
    relayCandidates (ctx.inFile file) = (relayCandidates ctx).map (·.inFile file) := by
  have hbindings : envBindings (ctx.inFile file) = envBindings ctx := rfl
  have hvalue : ∀ (h : HelmStep) (key value : String),
      ((referencedVariables value).findSome? fun name =>
        ((envBindings ctx).get? name).map (relayCandidate (ctx.inFile file) h key value name)) =
      ((referencedVariables value).findSome? fun name =>
        ((envBindings ctx).get? name).map (relayCandidate ctx h key value name)).map (·.inFile file) := by
    intro h key value
    simp only [List.map_findSome?, Function.comp_def, Option.map_map,
      funext (relayCandidate_inFile file ctx h key value _)]
  simp only [relayCandidates, List.map_flatMap, List.map_filterMap, hbindings, hvalue]
  rfl

theorem fileCandidatesFor_inFile (h : HelmStep) (step : TerraformStep) (name : String) :
    fileCandidatesFor (ctx.inFile file) h step name =
      (fileCandidatesFor ctx h step name).map (·.inFile file) := by
  have hquery : ∀ q, queryCandidate (ctx.inFile file) h step q =
      (queryCandidate ctx h step q).inFile file := by
    intro q
    simp only [queryCandidate, Candidate.inFile, List.map_append, map_inFile_optional,
      dependencyEvidence_inFile]
    rfl
  unfold fileCandidatesFor
  split
  · cases h.valuesFiles.find? (filesRelated name) with
    | none => rfl
    | some valuesFile => rfl
  · rw [List.map_map]
    exact List.map_congr_left fun q _ => hquery q

theorem fileCandidates_inFile :
    fileCandidates (ctx.inFile file) = (fileCandidates ctx).map (·.inFile file) := by
  have hwritten : writtenFiles (ctx.inFile file) = writtenFiles ctx := rfl
  simp only [fileCandidates, List.map_flatMap, hwritten, fileCandidatesFor_inFile]
  rfl

theorem artifactCandidate_inFile (h : HelmStep) (u : Upload) (d : Download) :
    artifactCandidate (ctx.inFile file) h u d = (artifactCandidate ctx h u d).inFile file := by
  simp only [artifactCandidate, Candidate.inFile, List.map_append, map_inFile_optional,
    dependencyEvidence_inFile]
  rfl

theorem artifactCandidatesIn_inFile (uploads : List Upload) (helmJob : String) :
    artifactCandidatesIn (ctx.inFile file) uploads helmJob =
      (artifactCandidatesIn ctx uploads helmJob).map (·.inFile file) := by
  have hcandidate := fun u d => funext fun h => artifactCandidate_inFile file ctx h u d
  simp only [artifactCandidatesIn, List.map_flatMap, List.map_map, hcandidate]
  rfl

theorem artifactCandidates_inFile :
    artifactCandidates (ctx.inFile file) = (artifactCandidates ctx).map (·.inFile file) := by
  have huploads : uploads (ctx.inFile file) = uploads ctx := rfl
  simp only [artifactCandidates, List.map_flatMap, huploads,
    funext (artifactCandidatesIn_inFile file ctx (uploads ctx))]
  rfl

theorem candidates_inFile (pattern : FlowPattern) :
    pattern.candidates (ctx.inFile file) = (pattern.candidates ctx).map (·.inFile file) := by
  cases pattern with
  | directOutput => exact directCandidates_inFile file ctx
  | outputToEnv => exact relayCandidates_inFile file ctx
  | outputToFile => exact fileCandidates_inFile file ctx
  | artifactTransfer => exact artifactCandidates_inFile file ctx
  | _ => rfl

end Candidates

/-! ## Flows of candidates -/

/-- What is done to every element of a list may be done before or after something else. -/
theorem mapM_map_comm {α β γ δ ε : Type} {f : γ → Except ε δ} {f' : α → Except ε β} {g : α → γ} {h : β → δ}
    (comm : ∀ x, f (g x) = (f' x).map h) (xs : List α) :
    (xs.map g).mapM f = (xs.mapM f').map (List.map h) := by
  induction xs with
  | nil => rfl
  | cons x rest ih =>
      rw [List.map_cons, List.mapM_cons, List.mapM_cons, comm, ih]
      cases f' x with
      | error fault => rfl
      | ok y =>
          cases rest.mapM f' with
          | error fault => rfl
          | ok ys => rfl

section Flows

variable (file : String) (ctx : Context)

theorem Evidence.check_inFile (e : Evidence) : (e.inFile file).check = e.check.map (·.inFile file) := by
  unfold check
  rw [inFile_strength]
  split <;> rfl

theorem Flow.check_inFile (f : Flow) : (f.inFile file).check = f.check.map (·.inFile file) := by
  unfold check
  rw [inFile_confidence]
  split <;> rfl

/-- Neither the strengths of the evidence nor the confidence made of them depend on the file. -/
theorem Candidate.flow_inFile (digest : Digest) (c : Candidate) :
    (c.inFile file).flow digest (ctx.inFile file) = (c.flow digest ctx).map (·.inFile file) := by
  have hevidence : (c.inFile file).evidence.mapM Evidence.check =
      (c.evidence.mapM Evidence.check).map (List.map (·.inFile file)) :=
    mapM_map_comm (Evidence.check_inFile file) c.evidence
  unfold flow
  rw [hevidence]
  cases c.evidence.mapM Evidence.check with
  | error fault => rfl
  | ok evidence =>
      have hstrengths : (evidence.map (·.inFile file)).map (·.strength) = evidence.map (·.strength) := by
        rw [List.map_map]
        rfl
      change Flow.check _ = (Flow.check _).map _
      rw [← Flow.check_inFile, hstrengths]
      rfl

theorem flowsOf_inFile (digest : Digest) (candidates : List Candidate) :
    flowsOf digest (ctx.inFile file) (candidates.map (·.inFile file)) =
      (flowsOf digest ctx candidates).map (List.map (·.inFile file)) := by
  unfold flowsOf
  rw [mapM_map_comm (Candidate.flow_inFile file ctx digest)]
  cases candidates.mapM (Candidate.flow digest ctx) <;> rfl

end Flows

/-! ## Detectors -/

/-- A detector that finds the same flows in every file. -/
structure Detector.IgnoresFile (d : Detector) : Prop where
  applies : ∀ file ctx, d.applies (Context.inFile file ctx) = d.applies ctx
  detect : ∀ file ctx, d.detect (Context.inFile file ctx) = (d.detect ctx).map (List.map (·.inFile file))

theorem ignoresFile_of_registered {digest : Digest} {d : Detector} (hd : d ∈ registeredDetectors digest) :
    d.IgnoresFile where
  applies file ctx := by
    rw [applies_of_registered hd]
    rfl
  detect file ctx := by
    rw [detect_of_registered hd, detect_of_registered hd, candidates_inFile, flowsOf_inFile]

/-- The name of the file is in nothing that a detector writes. -/
theorem detectorWritings_inFile (file : String) (ctx : Context) (pattern : FlowPattern) (flows : List Flow) :
    detectorWritings (ctx.inFile file) pattern (flows.map (·.inFile file)) =
      detectorWritings ctx pattern flows := by
  unfold detectorWritings
  rw [List.flatMap_map]
  cases pattern <;> rfl

theorem Detector.IgnoresFile.within {d : Detector} (h : d.IgnoresFile) (l : Limits) :
    (d.within l).IgnoresFile where
  applies := h.applies
  detect file ctx := by
    cases hfound : d.detect ctx with
    | error fault =>
        have hother : d.detect (ctx.inFile file) = .error fault := by rw [h.detect, hfound]; rfl
        rw [detect_within_of_failed hfound, detect_within_of_failed hother]
        rfl
    | ok found =>
        have hother : d.detect (ctx.inFile file) = .ok (found.map (·.inFile file)) := by
          rw [h.detect, hfound]
          rfl
        have hsame := detectorWritings_inFile file ctx d.pattern found
        by_cases admits : l.AdmitsAll (detectorWritings ctx d.pattern found)
        · rw [detect_within_of_admits hfound admits, detect_within_of_admits hother (hsame ▸ admits)]
          rfl
        · obtain ⟨fault, hfault⟩ := Limits.exists_fault_of_not_admitsAll admits
          rw [detect_within_of_refused hfound hfault, detect_within_of_refused hother (hsame ▸ hfault)]
          rfl

theorem ignoresFile_of_mem_detectorsWithin {l : Limits} {digest : Digest} {d : Detector}
    (hd : d ∈ detectorsWithin l digest) : d.IgnoresFile := by
  obtain ⟨own, hown, rfl⟩ := List.mem_map.mp hd
  exact (ignoresFile_of_registered (mem_sortBy.mp hown)).within l

/-! ## Selection -/

section Selection

variable (file : String)

theorem mergeFlows_inFile (found : List (List Flow)) :
    mergeFlows (found.map (List.map (·.inFile file))) = (mergeFlows found).map (·.inFile file) := by
  unfold mergeFlows
  rw [firstByKey_eq_firstBy, firstByKey_eq_firstBy, ← List.map_flatten, ← map_firstBy]
  rfl

theorem atLeast_inFile (threshold : Number) (flows : List Flow) :
    atLeast threshold (flows.map (·.inFile file)) = (atLeast threshold flows).map (·.inFile file) := by
  unfold atLeast
  rw [List.filter_map]
  rfl

theorem sortByConfidence_inFile (flows : List Flow) :
    sortByConfidence (flows.map (·.inFile file)) = (sortByConfidence flows).map (·.inFile file) := by
  unfold sortByConfidence
  rw [← map_sortBy]
  rfl

theorem selectFlows_inFile (options : DetectorOptions) (found : List (List Flow)) :
    selectFlows options (found.map (List.map (·.inFile file))) =
      (selectFlows options found).map (·.inFile file) := by
  unfold selectFlows
  rw [mergeFlows_inFile, atLeast_inFile, sortByConfidence_inFile, map_keepFirst]

end Selection

section Contexts

variable (file : String) (ctx : Context) (options : DetectorOptions) {detectors : List Detector}
  (ignore : ∀ d ∈ detectors, d.IgnoresFile)

include ignore

theorem foundFlows_inFile : foundFlows options detectors (ctx.inFile file) =
    (foundFlows options detectors ctx).map (List.map (·.inFile file)) := by
  unfold foundFlows
  rw [List.map_map]
  refine List.map_congr_left fun d hd => ?_
  rw [(ignore d hd).applies, (ignore d hd).detect, Function.comp_apply]
  split
  · cases d.detect ctx <;> rfl
  · rfl

theorem flowsInContext_inFile : flowsInContext options detectors (ctx.inFile file) =
    (flowsInContext options detectors ctx).map (·.inFile file) := by
  have htools : (ctx.inFile file).hasBothTools = ctx.hasBothTools := rfl
  unfold flowsInContext
  rw [htools, foundFlows_inFile file ctx options ignore, selectFlows_inFile]
  split <;> rfl

end Contexts

/-- What can be named in one file can be named in another, or is refused there for the same reason. -/
theorem Limits.names_or_refused (l : Limits) (workflow : Tree) :
    (∀ file, l.Admits (.encoded file) → l.Names workflow file) ∨
      ∃ fault, ∀ file, l.writeAll (fingerprintWritings workflow file) = .error fault := by
  by_cases canonical : l.Admits (.canonical workflow)
  · exact Or.inl fun file encoded => names_iff.mpr ⟨canonical, encoded⟩
  · obtain ⟨fault, hfault⟩ := Option.ne_none_iff_exists'.mp canonical
    refine Or.inr ⟨fault, fun file => ?_⟩
    unfold writeAll fingerprintWritings
    rw [List.findSome?_cons, hfault]

/-- The flows of a workflow in one file are its flows in another with the name put in. -/
theorem detectFlowsWithin_inFile (l : Limits) (digest : Digest) (options : DetectorOptions) (workflow : Tree)
    {file other : String} (encoded : l.Admits (.encoded file)) (encoded_other : l.Admits (.encoded other)) :
    detectFlowsWithin l digest options workflow file =
      (detectFlowsWithin l digest options workflow other).map (List.map (·.inFile file)) := by
  by_cases hnull : workflow = .null
  · subst hnull
    rfl
  · rcases l.names_or_refused workflow with named | ⟨fault, hfault⟩
    · by_cases reads : l.Reads workflow
      · rw [detectFlowsWithin_of_reads (named file encoded) reads,
          detectFlowsWithin_of_reads (named other encoded_other) reads]
        by_cases htable : ∀ table, workflow ≠ .table table
        · rw [startWithin_isNew.answer_of_not_table htable, startWithin_isNew.answer_of_not_table htable]
          rfl
        · obtain ⟨table, rfl⟩ : ∃ table, workflow = .table table := by simpa using htable
          rw [startWithin_isNew.answer_table, startWithin_isNew.answer_table]
          exact congrArg Except.ok (flowsInContext_inFile file (.ofTable table other) options
            fun _ hd => ignoresFile_of_mem_detectorsWithin hd)
      · obtain ⟨table, fault, rfl, hfault⟩ := Limits.exists_fault_of_not_reads reads
        unfold detectFlowsWithin
        rw [Session.detectWithin_of_unread (named file encoded) (startWithin_isNew.remembered? _) hfault,
          Session.detectWithin_of_unread (named other encoded_other) (startWithin_isNew.remembered? _) hfault]
        rfl
    · unfold detectFlowsWithin
      rw [Session.detectWithin_of_refused hnull (hfault file),
        Session.detectWithin_of_refused hnull (hfault other)]
      rfl

/-! ## Questions -/

/-- The reply as one of another file. -/
def Reply.inFile (file : String) : Reply → Reply
  | .flows found => .flows (found.map (·.inFile file))
  | .jobs names => .jobs names
  | .verdict holds => .verdict holds

/-- No question is about the file. -/
theorem Question.reply_inFile (file : String) (flows : List Flow) (question : Question) :
    question.reply (flows.map (·.inFile file)) = (question.reply flows).inFile file := by
  cases question with
  | reaching threshold => exact congrArg Reply.flows (atLeast_inFile file threshold flows)
  | ofPattern name =>
      simp only [reply, List.filter_map]
      rfl
  | ofLevel name =>
      simp only [reply, List.filter_map]
      rfl
  | between source target =>
      simp only [reply, hasFlowBetween, List.any_map]
      rfl
  | sources =>
      simp only [reply, sourceJobs, List.map_map]
      rfl
  | targets =>
      simp only [reply, targetJobs, List.map_map]
      rfl

/-- A question is asked about what the session answers under the name of questions. -/
theorem Session.askWithin_inFile (l : Limits) (s : Session) (workflow : Tree) (question : Question)
    (file : String) : (s.askWithin l workflow question).map (fun reply => reply.1.inFile file) =
      ((s.answerWithin l workflow questionFile).map (List.map (·.inFile file))).map question.reply := by
  unfold askWithin answerWithin
  cases s.detectWithin l workflow questionFile with
  | error fault => rfl
  | ok result => exact congrArg Except.ok (question.reply_inFile file result.1).symm

theorem Limits.admits_questionFile (l : Limits) : l.Admits (.encoded questionFile) :=
  admits_encoded_iff.mpr fun c hc => by
    have hchars : questionFile.toList.all (fun c => decide (c.toNat < 128)) = true := by decide
    exact l.ascii c (of_decide_eq_true (List.all_eq_true.mp hchars c hc))

/-! ## Sessions -/

section

variable (l : Limits) {digest : Digest} (options : DetectorOptions) {calls : List SessionCall}
variable {workflow : Tree} {file : String}

/-- After any calls, an answer is that to the workflow under every name, or that to a workflow of the same
canonical text that the session was asked about under this name. -/
theorem Session.answerWithin_inFile (separates : digest.Separates calls workflow file)
    (encoded : l.Admits (.encoded file)) :
    ∃ v, (v = workflow ∨ .detect v file ∈ sinceClear calls ∧ Json.canonical v = Json.canonical workflow) ∧
      ∀ name, l.Admits (.encoded name) →
        (((startWithin l digest options).afterWithin l calls).answerWithin l workflow file).map
            (List.map (·.inFile name)) =
          detectFlowsWithin l digest options v name := by
  have inv : ((startWithin l digest options).afterWithin l calls).Remembers (startWithin l digest options)
      ((startWithin l digest options).answerWithin l) (sinceClear calls) :=
    startWithin_isNew.afterWithin_remembers calls
  rcases inv.answerWithin_first_or_shared startWithin_isNew separates.sinceClear with
    hanswer | ⟨v, hcall, hcanonical, hanswer⟩
  · refine ⟨workflow, Or.inl rfl, fun name hname => ?_⟩
    rw [hanswer]
    exact (detectFlowsWithin_inFile l digest options workflow hname encoded).symm
  · refine ⟨v, Or.inr ⟨hcall, hcanonical⟩, fun name hname => ?_⟩
    rw [hanswer]
    exact (detectFlowsWithin_inFile l digest options v hname encoded).symm

/-- The reply to a question is as good. -/
theorem Session.askWithin_any_file (separates : digest.Separates calls workflow questionFile) :
    ∃ v, (v = workflow ∨
        .detect v questionFile ∈ sinceClear calls ∧ Json.canonical v = Json.canonical workflow) ∧
      ∀ (question : Question) (name : String), l.Admits (.encoded name) →
        (((startWithin l digest options).afterWithin l calls).askWithin l workflow question).map
            (fun reply => reply.1.inFile name) =
          (detectFlowsWithin l digest options v name).map question.reply := by
  obtain ⟨v, hv, hanswer⟩ := answerWithin_inFile l options separates l.admits_questionFile
  refine ⟨v, hv, fun question name hname => ?_⟩
  rw [askWithin_inFile, hanswer name hname]

end

/-- The name of the file does not influence detection, as far as it can be encoded.  The flows of a workflow
in one file are those in another with the name put in their place.  After any calls, an answer is in this
sense that to the workflow under every name, or that to a workflow of the same canonical text that the session
was asked about under the same name since it was last cleared; and so is the reply to every question, which is
always asked under one name. -/
theorem detection_ignores_file_name (l : Limits) (digest : Digest) (options : DetectorOptions) :
    (∀ (workflow : Tree) (f g : String), l.Admits (.encoded f) → l.Admits (.encoded g) →
      detectFlowsWithin l digest options workflow g =
        (detectFlowsWithin l digest options workflow f).map (List.map (·.inFile g))) ∧
    (∀ (calls : List SessionCall) (workflow : Tree) (f : String),
      digest.Separates calls workflow f → l.Admits (.encoded f) →
      ∃ v, (v = workflow ∨ .detect v f ∈ sinceClear calls ∧ Json.canonical v = Json.canonical workflow) ∧
        ∀ g, l.Admits (.encoded g) →
          (((Session.startWithin l digest options).afterWithin l calls).answerWithin l workflow f).map
              (List.map (·.inFile g)) =
            detectFlowsWithin l digest options v g) ∧
    ∀ (calls : List SessionCall) (workflow : Tree), digest.Separates calls workflow questionFile →
      ∃ v, (v = workflow ∨
          .detect v questionFile ∈ sinceClear calls ∧ Json.canonical v = Json.canonical workflow) ∧
        ∀ (question : Question) (g : String), l.Admits (.encoded g) →
          (((Session.startWithin l digest options).afterWithin l calls).askWithin l workflow question).map
              (fun reply => reply.1.inFile g) =
            (detectFlowsWithin l digest options v g).map question.reply :=
  ⟨fun workflow _ _ hf hg => detectFlowsWithin_inFile l digest options workflow hg hf,
    fun _ _ _ separates encoded => Session.answerWithin_inFile l options separates encoded,
    fun _ _ separates => Session.askWithin_any_file l options separates⟩

/-! ### Two orders under two names -/

/-- The session that was asked about the jobs in one order, under the name of questions. -/
def askedBinderFirst : Session :=
  (Session.startWithin .standard plainDigest {}).afterWithin .standard [.detect binderFirst questionFile]

/-- The jobs that a reply names. -/
def replyJobs (reply : Except SessionFault Reply) : List String :=
  match reply with
  | .ok (.jobs names) => names
  | _ => []

/-- The flows of a workflow are the same in two files but for the name, and the session that was asked about
the other order replies with the flows of one of the orders, whatever the file they are in. -/
theorem detection_ignores_file_name_remembered :
    (answerSources (detectFlowsWithin .standard plainDigest {} binderLast "one.yml") = [("b", "y")] ∧
      detectFlowsWithin .standard plainDigest {} binderLast "two.yml" =
        (detectFlowsWithin .standard plainDigest {} binderLast "one.yml").map (List.map (·.inFile "two.yml"))) ∧
    (∃ v, (v = binderLast ∨ .detect v "one.yml" ∈ sinceClear [.detect binderFirst questionFile] ∧
        Json.canonical v = Json.canonical binderLast) ∧
      (askedBinderFirst.answerWithin .standard binderLast "one.yml").map (List.map (·.inFile "two.yml")) =
        detectFlowsWithin .standard plainDigest {} v "two.yml") ∧
    ∃ v, (v = binderLast ∨ .detect v questionFile ∈ sinceClear [.detect binderFirst questionFile] ∧
        Json.canonical v = Json.canonical binderLast) ∧
      (askedBinderFirst.askWithin .standard binderLast .sources).map (fun reply => reply.1.inFile "two.yml") =
        (detectFlowsWithin .standard plainDigest {} v "two.yml").map Question.sources.reply := by
  have separates : ∀ file, plainDigest.Separates [.detect binderFirst questionFile] binderLast file :=
    fun _ _ _ _ htext => htext
  have one : Limits.standard.Admits (.encoded "one.yml") := by decide +kernel
  have two : Limits.standard.Admits (.encoded "two.yml") := by decide +kernel
  obtain ⟨fresh, answers, replies⟩ := detection_ignores_file_name .standard plainDigest {}
  obtain ⟨v, hv, hanswer⟩ := answers _ binderLast "one.yml" (separates _) one
  obtain ⟨w, hw, hreply⟩ := replies _ binderLast (separates _)
  exact ⟨⟨by decide +kernel, fresh binderLast "one.yml" "two.yml" one two⟩, ⟨v, hv, hanswer "two.yml" two⟩,
    ⟨w, hw, hreply .sources "two.yml" two⟩⟩

/-- A session does not reply to every question in agreement with what it answers under another name, and not
every workflow has the same flows under a name that cannot be encoded. -/
theorem file_name_matters :
    (¬ ∀ (calls : List SessionCall) (workflow : Tree) (question : Question) (g : String),
      let s := (Session.startWithin .standard plainDigest {}).afterWithin .standard calls
      (s.askWithin .standard workflow question).map (fun reply => reply.1.inFile g) =
        (s.answerWithin .standard workflow g).map question.reply) ∧
    ¬ ∀ (workflow : Tree) (f g : String), detectFlowsWithin .standard plainDigest {} workflow g =
      (detectFlowsWithin .standard plainDigest {} workflow f).map (List.map (·.inFile g)) := by
  constructor
  · intro agree
    have same := congrArg replyJobs
      (agree [.detect binderFirst questionFile] binderLast .sources "other.yml")
    have asked : replyJobs ((askedBinderFirst.askWithin .standard binderLast .sources).map
        fun reply => reply.1.inFile "other.yml") = ["a"] := by decide +kernel
    have answered : replyJobs ((askedBinderFirst.answerWithin .standard binderLast "other.yml").map
        Question.sources.reply) = ["b"] := by decide +kernel
    exact absurd (asked.symm.trans (same.trans answered)) (by decide)
  · intro agree
    have same := congrArg Except.isOk
      (agree (.table []) "ci.yml" (String.singleton (Text.unitChar 0xD800)))
    revert same
    decide +kernel

end DeployTrace
