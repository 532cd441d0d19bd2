/-
  DeployTrace/Proofs/AnalysisCounts.lean --- what an analysis counts, averages and warns of fits its flows.

  WHAT THIS FILE IS FOR.  An analysis says things about its flows in several places.  The summary counts
  them by the level that each flow carries, while reports group them by the level of their confidence; the
  mean is computed with binary fractions; and warnings are collected from a context that is read once more.
  It is shown here, for every workflow, under any options and limits, that all of it fits together.

  THE MEAN.  Confidences are integers, so that their sum is exact.  What is rounded is the quotient, first to
  a binary fraction and then to an integer, and neither rounding leaves the interval between the least and
  the greatest confidence, whose ends are integers.
-/
import Mathlib.Algebra.Order.BigOperators.Group.List
import Mathlib.Data.Set.Finite.Lemmas
import DeployTrace.Proofs.Rounding
import DeployTrace.Proofs.Safety
import DeployTrace.Proofs.StepOrder

set_option autoImplicit false

namespace DeployTrace

/-! ## What is to fit -/

/-- A job of a workflow declares a dependency on another one itself. -/
def Declares (workflow : Table) (job other : String) : Prop :=
  ∃ entry ∈ extractJobs workflow, entry.1 = job ∧ other ∈ declaredDependencies entry.2

instance (workflow : Table) (job other : String) : Decidable (Declares workflow job other) :=
  inferInstanceAs (Decidable (∃ entry ∈ extractJobs workflow,
    entry.1 = job ∧ other ∈ declaredDependencies entry.2))

/-- A flow that leaves its job for one that does not declare to depend on it. -/
def Flow.Undeclared (workflow : Table) (f : Flow) : Prop :=
  f.source.jobId ≠ f.target.jobId ∧ ¬ Declares workflow f.target.jobId f.source.jobId

instance (workflow : Table) : DecidablePred (Flow.Undeclared workflow) := fun f =>
  inferInstanceAs (Decidable (f.source.jobId ≠ f.target.jobId ∧
    ¬ Declares workflow f.target.jobId f.source.jobId))

/-- A summary of some flows. -/
structure Summary.Counts (s : Summary) (flows : List Flow) : Prop where
  total : s.totalFlows = flows.length
  patterns : (s.byPattern.map (·.2)).sum = flows.length
  levels : (s.byLevel.map (·.2)).sum = flows.length
  /-- a level is counted as often as there are flows in the group of that level -/
  level : ∀ l : ConfidenceLevel, s.byLevel.get? l.name = some ((flowsOfLevel l flows).length : Int)
  average_none : flows = [] → s.average = 0
  average : flows ≠ [] → ∃ least ∈ flows, ∃ greatest ∈ flows,
    (∀ f ∈ flows, least.confidence.le f.confidence = true ∧ f.confidence.le greatest.confidence = true) ∧
    least.confidence.le (.int s.average) = true ∧ (Number.int s.average).le greatest.confidence = true

/-- The warnings of an analysis of a workflow. -/
structure Analysis.Warns (a : Analysis) (workflow : Table) : Prop where
  /-- one warning for every flow without a declared dependency, in the order of the flows -/
  undeclared : a.warnings.filter (·.code == "MISSING_JOB_DEPENDENCY") =
    (a.flows.filter fun f => f.Undeclared workflow).map dependencyWarning
  one_tool : ∀ w ∈ a.warnings, w.code = "NO_HELM_STEPS" → ∀ v ∈ a.warnings, v.code ≠ "NO_TF_STEPS"
  both_tools : a.flows ≠ [] → ∀ w ∈ a.warnings, w.code ≠ "NO_HELM_STEPS" ∧ w.code ≠ "NO_TF_STEPS"

/-- An analysis that has nothing to say of a workflow. -/
structure Analysis.Blank (a : Analysis) : Prop where
  flows : a.flows = []
  warnings : a.warnings = []
  total : a.summary.totalFlows = 0
  patterns : ∀ entry ∈ a.summary.byPattern, entry.2 = 0
  levels : ∀ entry ∈ a.summary.byLevel, entry.2 = 0
  average : a.summary.average = 0
  terraform : a.summary.terraformJobs = 0
  helm : a.summary.helmJobs = 0

/-! ## Counts -/

/-- Counted by kinds that are all listed once, things are counted once. -/
theorem sum_counts {α κ : Type} [DecidableEq κ] (kindOf : α → κ) {kinds : List κ} (nodup : kinds.Nodup)
    (listed : ∀ kind, kind ∈ kinds) (xs : List α) :
    (kinds.map fun k => ((xs.filter (kindOf · == k)).length : Int)).sum = xs.length := by
  induction xs with
  | nil => simp
  | cons x rest ih =>
      have hcons : ∀ k, (((x :: rest).filter (kindOf · == k)).length : Int) =
          (if k = kindOf x then 1 else 0) + ((rest.filter (kindOf · == k)).length : Int) := by
        intro k
        by_cases hk : k = kindOf x
        · simp [hk, Int.add_comm]
        · simp [hk, Ne.symm hk]
      have hone : (kinds.map fun k => if k = kindOf x then (1 : Int) else 0).sum = 1 := by
        simp [List.sum_map_ite_eq, List.count_eq_one_of_mem nodup (listed _)]
      simp only [hcons]
      rw [List.sum_map_add, hone, ih, List.length_cons]
      omega

theorem FlowPattern.nodup_all : FlowPattern.all.Nodup := by decide

theorem ConfidenceLevel.nodup_all : ConfidenceLevel.all.Nodup := by decide

/-! ## The mean -/

theorem sum_int (scores : List Int) : Arithmetic.sum (scores.map Number.int) = .int scores.sum := by
  have hfold : ∀ start, (scores.map Number.int).foldl Arithmetic.add (.int start) =
      .int (start + scores.sum) := by
    induction scores with
    | nil => simp
    | cons i rest ih =>
        intro start
        rw [List.map_cons, List.foldl_cons, List.sum_cons, ← Int.add_assoc]
        exact ih (start + i)
  have hsum := hfold 0
  rwa [Int.zero_add] at hsum

/-- The mean of integers is between any natural numbers that they are between. -/
theorem roundedMean_between {scores : List Int} (hne : scores ≠ []) {m n : Nat} (hn : n < 2 ^ 52)
    (hlow : ∀ i ∈ scores, (m : Int) ≤ i) (hhigh : ∀ i ∈ scores, i ≤ n) :
    (m : Int) ≤ roundedMean (scores.map Number.int) ∧ roundedMean (scores.map Number.int) ≤ n := by
  have hlength : (0 : Rat) < scores.length := by exact_mod_cast List.length_pos_iff.mpr hne
  have hbelow : (scores.length * m : Int) ≤ scores.sum := by
    simpa using List.card_nsmul_le_sum scores (m : Int) hlow
  have habove : scores.sum ≤ (scores.length * n : Int) := by
    simpa using List.sum_le_card_nsmul scores (n : Int) hhigh
  have hquotient : (m : Rat) ≤ (scores.sum : Rat) / scores.length ∧
      (scores.sum : Rat) / scores.length ≤ n := by
    rw [le_div_iff₀ hlength, div_le_iff₀ hlength, mul_comm (m : Rat), mul_comm (n : Rat)]
    exact ⟨by exact_mod_cast hbelow, by exact_mod_cast habove⟩
  have hmean : roundedMean (scores.map Number.int) =
      (Binary64.ofRat ((scores.sum : Rat) / scores.length)).round := by
    have hempty : (scores.map Number.int).isEmpty = false := by simpa using hne
    have hzero : ((scores.length : Int) == 0) = false := by simpa using hne
    unfold roundedMean
    rw [sum_int, List.length_map, hempty]
    simp only [Number.div, hzero]
    rfl
  rw [hmean]
  exact Binary64.round_ofRat_between hn hquotient.1 hquotient.2

/-- A confidence is an integer on the scale. -/
def Flow.Scored (f : Flow) : Prop :=
  f.confidence = .int f.confidence.round ∧ 0 ≤ f.confidence.round ∧ f.confidence.round ≤ 100

/-- The mean confidence is between the least and the greatest one. -/
theorem averageConfidence_between {flows : List Flow} (scored : ∀ f ∈ flows, f.Scored) (hne : flows ≠ []) :
    ∃ least ∈ flows, ∃ greatest ∈ flows,
      (∀ f ∈ flows, least.confidence.le f.confidence = true ∧ f.confidence.le greatest.confidence = true) ∧
      least.confidence.le (.int (averageConfidence flows)) = true ∧
      (Number.int (averageConfidence flows)).le greatest.confidence = true := by
  let score (f : Flow) : Int := f.confidence.round
  have nonempty : {f | f ∈ flows}.Nonempty := List.exists_mem_of_ne_nil flows hne
  obtain ⟨least, hleast, hlow⟩ := Set.exists_min_image _ score flows.finite_toSet nonempty
  obtain ⟨greatest, hgreatest, hhigh⟩ := Set.exists_max_image _ score flows.finite_toSet nonempty
  have hscores : flows.map Flow.confidence = (flows.map score).map Number.int := by
    rw [List.map_map]
    exact List.map_congr_left fun f hf => (scored f hf).1
  -- The bounds are natural numbers, which is what rounding keeps to.
  obtain ⟨m, hm⟩ := Int.eq_ofNat_of_zero_le (scored least hleast).2.1
  obtain ⟨n, hn⟩ := Int.eq_ofNat_of_zero_le (scored greatest hgreatest).2.1
  have hlarge : n < 2 ^ 52 := by
    have htop := (scored greatest hgreatest).2.2
    omega
  have hmean : (m : Int) ≤ averageConfidence flows ∧ averageConfidence flows ≤ n := by
    unfold averageConfidence
    rw [hscores]
    refine roundedMean_between (by simpa using hne) hlarge ?_ ?_
    · intro i hi
      obtain ⟨f, hf, rfl⟩ := List.mem_map.mp hi
      exact hm ▸ hlow f hf
    · intro i hi
      obtain ⟨f, hf, rfl⟩ := List.mem_map.mp hi
      exact hn ▸ hhigh f hf
  refine ⟨least, hleast, greatest, hgreatest, ?_, ?_, ?_⟩
  · intro f hf
    rw [(scored least hleast).1, (scored greatest hgreatest).1, (scored f hf).1]
    exact ⟨Number.int_le_int (hlow f hf), Number.int_le_int (hhigh f hf)⟩
  · rw [(scored least hleast).1]
    exact Number.int_le_int (hm ▸ hmean.1)
  · rw [(scored greatest hgreatest).1]
    exact Number.int_le_int (hn ▸ hmean.2)

/-! ## Summaries -/

/-- A summary of flows that carry the levels of their confidences. -/
theorem summarize_counts {flows : List Flow} (scored : ∀ f ∈ flows, f.Scored)
    (levels : ∀ f ∈ flows, f.level = .ofScore f.confidence) (ctx : Option Context) :
    (summarize flows ctx).Counts flows := by
  have grouped : ∀ l, flows.filter (·.level == l) = flowsOfLevel l flows := by
    intro l
    refine List.filter_congr fun f hf => ?_
    rw [levels f hf]
  constructor
  · rfl
  · unfold summarize
    rw [List.map_map]
    exact sum_counts Flow.pattern FlowPattern.nodup_all FlowPattern.mem_all flows
  · unfold summarize
    rw [List.map_map]
    exact sum_counts Flow.level ConfidenceLevel.nodup_all ConfidenceLevel.mem_all flows
  · intro l
    rw [← grouped l]
    cases l <;> rfl
  · rintro rfl
    rfl
  · exact averageConfidence_between scored

/-! ## Warnings -/

section

variable {workflow : Table} {file : String} {ctx : Context} {flows : List Flow} {w : RunWarning}

theorem mem_toolWarnings (hw : w ∈ toolWarnings ctx) :
    (w.code = "NO_HELM_STEPS" ∧ ctx.terraformSteps ≠ [] ∧ ctx.helmSteps = []) ∨
      (w.code = "NO_TF_STEPS" ∧ ctx.terraformSteps = [] ∧ ctx.helmSteps ≠ []) := by
  unfold toolWarnings at hw
  rcases List.mem_append.mp hw with hw | hw
  · split at hw
    · rename_i hsteps
      cases List.mem_singleton.mp hw
      left
      simpa using hsteps
    · cases hw
  · split at hw
    · rename_i hsteps
      cases List.mem_singleton.mp hw
      right
      simpa [and_comm] using hsteps
    · cases hw

theorem code_of_mem_levelWarnings (hw : w ∈ levelWarnings flows) : w.code = "MANY_LOW_CONFIDENCE" := by
  unfold levelWarnings at hw
  simp only at hw
  split at hw
  · cases List.mem_singleton.mp hw
    rfl
  · cases hw

/-- A warning about one of the tools is only there when the workflow runs the other one alone. -/
theorem tools_of_mem_warnings (hw : w ∈ warnings flows ctx) :
    (w.code = "NO_HELM_STEPS" → ctx.terraformSteps ≠ [] ∧ ctx.helmSteps = []) ∧
      (w.code = "NO_TF_STEPS" → ctx.terraformSteps = [] ∧ ctx.helmSteps ≠ []) := by
  unfold warnings at hw
  rcases List.mem_append.mp hw with hw | hw
  · rcases List.mem_append.mp hw with hw | hw
    · rcases mem_toolWarnings hw with ⟨hcode, hsteps⟩ | ⟨hcode, hsteps⟩ <;> simp [hcode, hsteps]
    · simp [code_of_mem_levelWarnings hw]
  · obtain ⟨f, -, rfl⟩ := List.mem_map.mp hw
    simp [dependencyWarning]

/-- The warnings of one code are those about declared dependencies. -/
theorem filter_warnings : (warnings flows ctx).filter (·.code == "MISSING_JOB_DEPENDENCY") =
    (flows.filter (lacksDependency ctx)).map dependencyWarning := by
  have others : ∀ w ∈ toolWarnings ctx ++ levelWarnings flows, ¬ (w.code == "MISSING_JOB_DEPENDENCY") = true := by
    intro w hw
    rcases List.mem_append.mp hw with hw | hw
    · rcases mem_toolWarnings hw with ⟨hcode, -⟩ | ⟨hcode, -⟩ <;> simp [hcode]
    · simp [code_of_mem_levelWarnings hw]
  have own : ∀ w ∈ (flows.filter (lacksDependency ctx)).map dependencyWarning,
      (w.code == "MISSING_JOB_DEPENDENCY") = true := by
    intro w hw
    obtain ⟨f, -, rfl⟩ := List.mem_map.mp hw
    exact beq_self_eq_true _
  unfold warnings
  rw [List.filter_append, List.filter_eq_nil_iff.mpr others, List.filter_eq_self.mpr own, List.nil_append]

/-- A context records for a job what the job declares, and nothing for a job that does not exist. -/
theorem mem_dependenciesOf {job other : String} :
    other ∈ (Context.ofTable workflow file).dependenciesOf job ↔ Declares workflow job other := by
  constructor
  · intro h
    cases hget : (extractJobs workflow).get? job with
    | none =>
        have hnone := Entries.get?_map declaredDependencies (extractJobs workflow) job
        rw [hget] at hnone
        have hnil : (Context.ofTable workflow file).dependenciesOf job = [] := congrArg (·.getD []) hnone
        rw [hnil] at h
        cases h
    | some table =>
        have hjob := Entries.mem_of_get? hget
        rw [Context.dependenciesOf_ofTable hjob] at h
        exact ⟨_, hjob, rfl, h⟩
  · rintro ⟨⟨name, table⟩, hjob, hname, h⟩
    have hname : name = job := hname
    subst hname
    rwa [Context.dependenciesOf_ofTable hjob]

theorem lacksDependency_iff {f : Flow} :
    lacksDependency (.ofTable workflow file) f = true ↔ f.Undeclared workflow := by
  unfold lacksDependency Flow.isCrossJob Flow.Undeclared
  rw [Bool.and_eq_true, bne_iff_ne, Bool.not_eq_true', ← Bool.not_eq_true, List.contains_iff_mem,
    mem_dependenciesOf]

/-! ## Analyses -/

/-- The analysis of a table, and of the flows that are reported for it. -/
theorem analyzeWorkflow_table (digest : Digest) (options : DetectorOptions) (workflow : Table) (file : String) :
    let ctx := Context.ofTable workflow file
    let flows := flowsInContext options (detectors digest) ctx
    analyzeWorkflow digest options (.table workflow) file =
      { flows := flows, summary := summarize flows (some ctx), options := options,
        warnings := warnings flows ctx } := by
  have room : 0 < (Session.start digest options).capacity := (by decide : 0 < standardCapacity)
  obtain ⟨cache, -, hdetect⟩ := Session.detect_of_new room
    (rfl : (Session.start digest options).remembered?
      (fingerprint (Session.start digest options).digest (.table workflow) file) = none)
  unfold analyzeWorkflow Session.analyze
  rw [hdetect]
  rfl

theorem Flow.WellFormedIn.scored {pattern : FlowPattern} {f : Flow} (h : f.WellFormedIn ctx pattern) :
    f.Scored := by
  obtain ⟨score, hscore, hbounds⟩ := h.confidence_int
  unfold Flow.Scored
  rw [hscore]
  exact ⟨rfl, hbounds⟩

/-- A workflow of which flows are reported runs both tools. -/
theorem hasBothTools_of_reported {options : DetectorOptions} {detectors : List Detector}
    (h : flowsInContext options detectors ctx ≠ []) : ctx.terraformSteps ≠ [] ∧ ctx.helmSteps ≠ [] := by
  unfold flowsInContext at h
  split at h
  · rename_i hboth
    simpa [Context.hasBothTools] using hboth
  · exact absurd rfl h

/-- Warnings that are collected for the flows of a context fit the workflow. -/
theorem Analysis.warns_of_collected {a : Analysis}
    (collected : a.warnings = DeployTrace.warnings a.flows (.ofTable workflow file))
    (both : a.flows ≠ [] → (Context.ofTable workflow file).terraformSteps ≠ [] ∧
      (Context.ofTable workflow file).helmSteps ≠ []) : a.Warns workflow := by
  constructor
  · rw [collected]
    refine filter_warnings.trans (congrArg (List.map dependencyWarning) (List.filter_congr fun f hf => ?_))
    rw [Bool.eq_iff_iff, decide_eq_true_iff]
    exact lacksDependency_iff
  · intro w hw hcode v hv hcode'
    rw [collected] at hw hv
    have alone := (tools_of_mem_warnings hw).1 hcode
    exact alone.1 ((tools_of_mem_warnings hv).2 hcode').1
  · intro hne w hw
    rw [collected] at hw
    exact ⟨fun hcode => (both hne).2 ((tools_of_mem_warnings hw).1 hcode).2,
      fun hcode => (both hne).1 ((tools_of_mem_warnings hw).2 hcode).1⟩

/-- What is warned of in the analysis of a table. -/
theorem analyzeWorkflow_warns (digest : Digest) (options : DetectorOptions) (workflow : Table) (file : String) :
    (analyzeWorkflow digest options (.table workflow) file).Warns workflow := by
  rw [analyzeWorkflow_table]
  exact Analysis.warns_of_collected rfl hasBothTools_of_reported

end

/-! ## Analyses under limits -/

section

variable {l : Limits} {digest : Digest} {options : DetectorOptions} {workflow : Tree} {file : String}

/-- Flows that are reported under limits fit the context of their workflow. -/
theorem wellFormed_of_mem_flowsWithin {workflow : Table} {f : Flow}
    (hf : f ∈ flowsInContext options (detectorsWithin l digest) (.ofTable workflow file)) :
    ∃ pattern, f.WellFormedIn (.ofTable workflow file) pattern := by
  obtain ⟨_, hwithin, found, seen, hfound, hstays⟩ := exists_detector_of_mem_flowsInContext hf
  obtain ⟨d, hd, rfl⟩ := List.mem_map.mp hwithin
  obtain ⟨own, hown, hwell⟩ :=
    detect_wellFormed (Context.ofTable_consistent workflow file) (mem_sortBy.mp hd)
  rw [Detector.detect_of_within hfound] at hown
  cases hown
  exact ⟨d.pattern, hwell f ((firstBy_sublist seen found).subset hstays)⟩

/-- The analysis of what is no table or cannot be read. -/
theorem analyzeWorkflowWithin_of_unread (h : (∀ table, workflow ≠ .table table) ∨ ¬ l.Reads workflow) :
    ∃ message, analyzeWorkflowWithin l digest options workflow file =
      { flows := [], summary := summarize [] none, options := options, errors := [detectionError message] } := by
  obtain ⟨fault, hfault⟩ : ∃ fault, Context.ofWorkflowWithin l workflow file = .error fault := by
    rcases h with htable | hreads
    · exact Context.exists_fault_of_not_table htable
    · obtain ⟨table, fault, rfl, hfault⟩ := Limits.exists_fault_of_not_reads hreads
      exact ⟨_, Context.ofWorkflowWithin_of_refused hfault⟩
  refine ⟨fault.message, ?_⟩
  unfold analyzeWorkflowWithin
  rw [Session.analyzeWithin_of_unread hfault]
  rfl

/-- Nothing is counted where there is nothing. -/
theorem blank_of_unread (h : (∀ table, workflow ≠ .table table) ∨ ¬ l.Reads workflow) :
    (analyzeWorkflowWithin l digest options workflow file).Blank := by
  obtain ⟨message, hanalysis⟩ := analyzeWorkflowWithin_of_unread h
  rw [hanalysis]
  exact {
    flows := rfl
    warnings := rfl
    total := rfl
    patterns := List.forall_mem_map.mpr fun _ _ => rfl
    levels := List.forall_mem_map.mpr fun _ _ => rfl
    average := rfl
    terraform := rfl
    helm := rfl }

theorem Analysis.Blank.warns {a : Analysis} (blank : a.Blank) (workflow : Table) : a.Warns workflow where
  undeclared := by rw [blank.warnings, blank.flows]; rfl
  one_tool w hw := absurd (blank.warnings ▸ hw) List.not_mem_nil
  both_tools hne := absurd blank.flows hne

/-- What the analysis of a table that can be read is made of: the flows that are found, or none. -/
theorem analyzeWorkflowWithin_of_reads {workflow : Table} (reads : l.Reads (.table workflow)) :
    let a := analyzeWorkflowWithin l digest options (.table workflow) file
    let ctx := Context.ofTable workflow file
    (a.flows = [] ∨ a.flows = flowsInContext options (detectorsWithin l digest) ctx) ∧
      a.summary = summarize a.flows (some ctx) ∧ a.warnings = warnings a.flows ctx := by
  have hctx : Context.ofWorkflowWithin l (.table workflow) file = .ok (.ofTable workflow file) :=
    Context.ofWorkflowWithin_of_reads reads
  unfold analyzeWorkflowWithin
  cases hdetect : (Session.startWithin l digest options).detectWithin l (.table workflow) file with
  | error fault =>
      rw [Session.analyzeWithin_of_failed hctx hdetect]
      exact ⟨Or.inl rfl, rfl, rfl⟩
  | ok result =>
      obtain ⟨flows, after⟩ := result
      rw [Session.analyzeWithin_of_answered hctx hdetect]
      refine ⟨Or.inr ?_, rfl, rfl⟩
      have hanswer : (Session.startWithin l digest options).answer (.table workflow) file = .ok flows :=
        congrArg (Except.map Prod.fst) (Session.detectWithin_eq_ok_iff.mp hdetect).1
      rw [startWithin_isNew.answer_table] at hanswer
      exact (Except.ok.inj hanswer).symm

theorem errors_analyzeWorkflowWithin_iff :
    (analyzeWorkflowWithin l digest options workflow file).errors ≠ [] ↔
      (∀ table, workflow ≠ .table table) ∨ ¬ l.Names workflow file ∨ ¬ l.Reads workflow :=
  Session.errors_analyzeWithin_iff fun table _ => ⟨_, startWithin_isNew.answer_table table⟩

end

/-- Whatever the workflow, the options and the limits: the summary counts the flows, whose mean confidence is
between the least and the greatest; the warnings of a table are those that its flows and steps call for; there
are errors exactly when the workflow is no table or cannot be named or read, and then there are no flows; and
of what is no table or cannot be read, the analysis has nothing to say at all. -/
theorem analysis_consistent (l : Limits) (digest : Digest) (options : DetectorOptions) (workflow : Tree)
    (file : String) :
    let a := analyzeWorkflowWithin l digest options workflow file
    a.summary.Counts a.flows ∧ (∀ table, workflow = .table table → a.Warns table) ∧
      (a.errors ≠ [] ↔
        (∀ table, workflow ≠ .table table) ∨ ¬ l.Names workflow file ∨ ¬ l.Reads workflow) ∧
      (a.errors ≠ [] → a.flows = []) ∧
      ((∀ table, workflow ≠ .table table) ∨ ¬ l.Reads workflow → a.Blank) := by
  intro a
  refine ⟨?_, ?_, errors_analyzeWorkflowWithin_iff, Session.flows_analyzeWithin.2, blank_of_unread⟩
  · by_cases unread : (∀ table, workflow ≠ .table table) ∨ ¬ l.Reads workflow
    · obtain ⟨message, hanalysis⟩ := analyzeWorkflowWithin_of_unread unread
      rw [show a = _ from hanalysis]
      exact summarize_counts (fun _ hf => absurd hf List.not_mem_nil)
        (fun _ hf => absurd hf List.not_mem_nil) none
    · obtain ⟨htable, reads⟩ := not_or.mp unread
      obtain ⟨table, rfl⟩ : ∃ table, workflow = .table table := by simpa using htable
      obtain ⟨hflows, hsummary, -⟩ := analyzeWorkflowWithin_of_reads (not_not.mp reads)
      have wellFormed : ∀ f ∈ a.flows, ∃ pattern, f.WellFormedIn (.ofTable table file) pattern := by
        intro f hf
        rcases hflows with hnone | hfound
        · exact absurd (hnone ▸ hf) List.not_mem_nil
        · exact wellFormed_of_mem_flowsWithin (hfound ▸ hf)
      rw [show a.summary = _ from hsummary]
      refine summarize_counts (fun f hf => ?_) (fun f hf => ?_) _
      · obtain ⟨pattern, hwell⟩ := wellFormed f hf
        exact hwell.scored
      · obtain ⟨pattern, hwell⟩ := wellFormed f hf
        exact hwell.level_eq
  · rintro table rfl
    by_cases reads : l.Reads (.table table)
    · obtain ⟨hflows, -, hwarnings⟩ := analyzeWorkflowWithin_of_reads reads
      refine Analysis.warns_of_collected hwarnings fun hne => ?_
      rcases hflows with hnone | hfound
      · exact absurd hnone hne
      · exact hasBothTools_of_reported (hfound ▸ hne)
    · exact (blank_of_unread (Or.inr reads)).warns table

/-! ### A flow between jobs and one inside a job -/

/-- A job that binds a variable, and one that hands it to Helm together with an output of its own. -/
def boundElsewhere : Table :=
  [binderJob, (.text "b", oneLineJob "helm --set k=$V --set m=$(terraform output y)")]

/-- The mean of the two confidences is between them, and there is a warning about one of the flows. -/
theorem analysis_consistent_elsewhere :
    let a := analyzeWorkflowWithin .standard plainDigest {} (.table boundElsewhere) "ci.yml"
    (a.flows.map (fun f => (f.source.jobId, f.target.jobId, f.confidence)) =
        [("b", "b", .int 94), ("a", "b", .int 77)] ∧
      a.summary.average = 86 ∧ a.warnings.map (·.code) = ["MISSING_JOB_DEPENDENCY"]) ∧
      a.summary.Counts a.flows ∧ a.Warns boundElsewhere := by
  obtain ⟨counts, warns, -⟩ := analysis_consistent .standard plainDigest {} (.table boundElsewhere) "ci.yml"
  exact ⟨by decide +kernel, counts, warns boundElsewhere rfl⟩

/-- Not only what is no table leads to errors: an integer of too many digits does as well. -/
theorem errors_of_long_number :
    ¬ ∀ (workflow : Tree) (file : String),
      (analyzeWorkflowWithin .standard plainDigest {} workflow file).errors ≠ [] ↔
        ∀ table, workflow ≠ .table table := by
  intro tables
  have refused : ¬ Limits.standard.Names (.table longNumberWorkflow) "ci.yml" := by decide +kernel
  exact (tables _ _).mp (errors_analyzeWorkflowWithin_iff.mpr (Or.inr (Or.inl refused))) _ rfl

end DeployTrace
