/-
  DeployTrace/Proofs/WeakDuplicates.lean --- sure flows that give way to an earlier one.

  WHAT THIS FILE IS FOR.  Of the flows with one key the first one found stays, and only afterwards are
  flows dropped that are not sure enough.  So a flow that is sure enough can give way to an earlier one
  that is not, and then its key is not reported at all.

  HOW FAR THIS GOES.  A flow's confidence can be read off the flow, and detectors that come earlier are
  surer with one exception.  Hence there are four ways in which a first flow can be weaker than a later
  one (`WeakFirst`), and nothing else is ever lost.
-/
import DeployTrace.Proofs.Certainty
import DeployTrace.Proofs.DirectIdiom
import Mathlib.Data.List.Nodup

set_option autoImplicit false

namespace DeployTrace

/-! ## Certainty along the detectors -/

/-- The priority of the detector that looks for a pattern. -/
def FlowPattern.priority : FlowPattern → Int
  | directOutput => 100
  | outputToEnv => 90
  | outputToFile => 80
  | artifactTransfer => 70
  | _ => 0

theorem priority_of_registered {digest : Digest} {d : Detector} (hd : d ∈ registeredDetectors digest) :
    d.priority = d.pattern.priority ∧ 62 ≤ d.pattern.leastCertainty := by
  simp only [registeredDetectors, List.mem_cons, List.not_mem_nil, or_false] at hd
  rcases hd with rfl | rfl | rfl | rfl
  · exact ⟨rfl, (by decide : (62 : Int) ≤ 90)⟩
  · exact ⟨rfl, (by decide : (62 : Int) ≤ 77)⟩
  · exact ⟨rfl, (by decide : (62 : Int) ≤ 65)⟩
  · exact ⟨rfl, (by decide : (62 : Int) ≤ 62)⟩

/-- A pattern that is looked for earlier is surer, except that a file may be less sure than an artifact. -/
theorem FlowPattern.certainty_order : ∀ first later : FlowPattern, later.priority ≤ first.priority →
    first = later ∨ later.greatestCertainty ≤ first.leastCertainty ∨
      (first = outputToFile ∧ later = artifactTransfer) := by
  intro first later h
  cases first <;> cases later <;> revert h <;> decide

/-- Steps that are nearer make a direct use inside one job no less sure. -/
theorem ownCertainty_antitone {near far : Nat} (h : near ≤ far) : ownCertainty far ≤ ownCertainty near := by
  unfold ownCertainty
  grind

/-! ## A first flow that is weaker -/

/-- The ways in which the first flow `first` of a key can be less sure than a later one. -/
inductive WeakFirst (ctx : Context) (first later : Flow) : Prop where
  /-- two direct uses inside one job, the first of which has its steps farther apart -/
  | farther (direct : first.pattern = .directOutput) (alsoDirect : later.pattern = .directOutput)
      (own : later.isCrossJob = false)
      (apart : stepDistance later.target.stepIndex later.source.stepIndex <
        stepDistance first.target.stepIndex first.source.stepIndex)
  /-- a values file that only looks related, and then a query on the file itself -/
  | relatedThenQuery (file : first.pattern = .outputToFile) (alsoFile : later.pattern = .outputToFile)
      (related : hasKind first.evidence .expressionMatch = false)
      (query : hasKind later.evidence .expressionMatch = true)
  /-- a values file that only looks related, and then an artifact that looks like outputs, from a job
  that is depended on -/
  | relatedThenArtifact (file : first.pattern = .outputToFile)
      (artifact : later.pattern = .artifactTransfer)
      (related : hasKind first.evidence .expressionMatch = false)
      (output : hasKind later.evidence .explicitReference = true)
      (depends : later.followsDependency ctx = true)
  /-- two artifacts, of which only the later one looks like outputs -/
  | plainThenOutput (artifact : first.pattern = .artifactTransfer)
      (alsoArtifact : later.pattern = .artifactTransfer)
      (plain : hasKind first.evidence .explicitReference = false)
      (output : hasKind later.evidence .explicitReference = true)

section

variable {ctx : Context} {first later : Flow}

/-- Flows with one key have their ends in the same jobs. -/
theorem isCrossJob_of_key (hkey : first.key = later.key) : first.isCrossJob = later.isCrossJob := by
  have hsource : first.source.jobId = later.source.jobId := congrArg FlowKey.sourceJob hkey
  have htarget : first.target.jobId = later.target.jobId := congrArg FlowKey.targetJob hkey
  unfold Flow.isCrossJob
  rw [hsource, htarget]

theorem followsDependency_of_key (hkey : first.key = later.key) :
    first.followsDependency ctx = later.followsDependency ctx := by
  have hsource : first.source.jobId = later.source.jobId := congrArg FlowKey.sourceJob hkey
  have htarget : first.target.jobId = later.target.jobId := congrArg FlowKey.targetJob hkey
  unfold Flow.followsDependency
  rw [isCrossJob_of_key hkey, hsource, htarget]

/-- A flow that is weaker than a later one of the same pattern. -/
theorem weakFirst_of_same_pattern (hkey : first.key = later.key) (hpattern : first.pattern = later.pattern)
    (hlt : first.certainty ctx < later.certainty ctx) : WeakFirst ctx first later := by
  have hcross := isCrossJob_of_key hkey
  have hfollows : first.followsDependency ctx = later.followsDependency ctx :=
    followsDependency_of_key hkey
  unfold Flow.certainty at hlt
  rw [hcross, hfollows, hpattern] at hlt
  cases hlater : later.pattern with
  | directOutput =>
      simp only [hlater] at hlt
      cases hown : later.isCrossJob with
      | true => simp [hown] at hlt
      | false =>
          simp only [hown, Bool.false_eq_true, if_false] at hlt
          refine .farther (hpattern.trans hlater) hlater hown (Nat.not_le.mp fun hnear => ?_)
          exact absurd (ownCertainty_antitone hnear) (Int.not_le.mpr hlt)
  | outputToEnv => simp [hlater] at hlt
  | outputToFile =>
      simp only [hlater] at hlt
      have hkinds : hasKind first.evidence .expressionMatch = false ∧
          hasKind later.evidence .expressionMatch = true := by grind
      exact .relatedThenQuery (hpattern.trans hlater) hlater hkinds.1 hkinds.2
  | artifactTransfer =>
      simp only [hlater] at hlt
      have hkinds : hasKind first.evidence .explicitReference = false ∧
          hasKind later.evidence .explicitReference = true := by grind
      exact .plainThenOutput (hpattern.trans hlater) hlater hkinds.1 hkinds.2
  | _ => simp [hlater] at hlt

/-- A file that is weaker than an artifact only looks related, and the artifact is as sure as can be. -/
theorem weakFirst_of_file_artifact (hfile : first.pattern = .outputToFile)
    (hartifact : later.pattern = .artifactTransfer)
    (hlt : first.certainty ctx < later.certainty ctx) : WeakFirst ctx first later := by
  unfold Flow.certainty at hlt
  simp only [hfile, hartifact] at hlt
  have hshown : hasKind first.evidence .expressionMatch = false ∧
      hasKind later.evidence .explicitReference = true ∧ later.followsDependency ctx = true := by grind
  exact .relatedThenArtifact hfile hartifact hshown.1 hshown.2.1 hshown.2.2

/-- A flow whose pattern is looked for no later is weaker in one of four ways only. -/
theorem weakFirst_of_lt (hkey : first.key = later.key)
    (hpriority : later.pattern.priority ≤ first.pattern.priority)
    (hlt : first.certainty ctx < later.certainty ctx) : WeakFirst ctx first later := by
  rcases FlowPattern.certainty_order _ _ hpriority with hsame | hsurer | ⟨hfile, hartifact⟩
  · exact weakFirst_of_same_pattern hkey hsame hlt
  · have hleast := (certainty_bounds ctx first).1
    have hgreatest := (certainty_bounds ctx later).2
    omega
  · exact weakFirst_of_file_artifact hfile hartifact hlt

/-- Flows that pass through variables are never outdone. -/
theorem WeakFirst.not_relay (h : WeakFirst ctx first later) : later.pattern ≠ .outputToEnv := by
  cases h <;> simp [*]

end

/-! ## The first flow of a key -/

section

variable {digest : Digest} {options : DetectorOptions} {ctx : Context} {f : Flow}

/-- What is known of a finding: its priority is that of its pattern, and its confidence is from the
table. -/
theorem finding_certainty {a : Finding} (ha : a ∈ findings options (detectors digest) ctx) :
    a.priority = a.flow.pattern.priority ∧ 62 ≤ a.flow.certainty ctx ∧
      a.flow.confidence = .int (a.flow.certainty ctx) := by
  obtain ⟨d, hd, ha⟩ := List.mem_flatMap.mp ha
  obtain ⟨hpattern, hconfidence⟩ :=
    certainty_of_found (mem_sortBy.mp hd) (flow_of_mem_findingsOf ha)
  obtain ⟨hpriority, hleast⟩ := priority_of_registered (mem_sortBy.mp hd)
  rw [priority_of_mem_findingsOf ha, hpriority, hpattern]
  have hbound := (certainty_bounds ctx a.flow).1
  rw [hpattern] at hbound
  exact ⟨rfl, by omega, hconfidence⟩

/-- The first flow with the key of a flow that was found is as sure, or weaker in one of four ways. -/
theorem exists_first_of_key {d : Detector} (hd : d ∈ detectors digest)
    (hf : f ∈ detectedBy options ctx d) :
    ∃ first ∈ mergeFlows (foundFlows options (detectors digest) ctx), first.key = f.key ∧
      first.confidence = .int (first.certainty ctx) ∧ f.confidence = .int (f.certainty ctx) ∧
      62 ≤ first.certainty ctx ∧ (f.certainty ctx ≤ first.certainty ctx ∨ WeakFirst ctx first f) := by
  obtain ⟨a, ha, rfl⟩ : ∃ a ∈ findings options (detectors digest) ctx, a.flow = f := by
    rw [← map_flow_findingsOf] at hf
    obtain ⟨a, ha, hflow⟩ := List.mem_map.mp hf
    exact ⟨a, List.mem_flatMap.mpr ⟨d, hd, ha⟩, hflow⟩
  obtain ⟨b, hb, hkey, hbefore⟩ := exists_mem_firstBy (fun a : Finding => a.flow.key)
    (findings_pairwise (detectors_order digest)) ha List.not_mem_nil
  have hmerged : b.flow ∈ mergeFlows (foundFlows options (detectors digest) ctx) := by
    unfold mergeFlows
    rw [firstByKey_eq_firstBy, ← map_flow_findings, ← map_firstBy]
    exact List.mem_map_of_mem hb
  obtain ⟨hbPriority, hbLeast, hbConfidence⟩ := finding_certainty ((firstBy_sublist [] _).subset hb)
  obtain ⟨haPriority, -, haConfidence⟩ := finding_certainty ha
  refine ⟨b.flow, hmerged, hkey, hbConfidence, haConfidence, hbLeast, ?_⟩
  rcases hbefore with rfl | hbefore
  · exact Or.inl (Int.le_refl _)
  · have hpriority : a.flow.pattern.priority ≤ b.flow.pattern.priority := by
      rw [← haPriority, ← hbPriority]
      rcases hbefore with hlt | ⟨heq, -⟩
      · exact Int.le_of_lt hlt
      · exact Int.le_of_eq heq.symm
    exact (Int.lt_or_le (b.flow.certainty ctx) (a.flow.certainty ctx)).symm.imp_right
      (weakFirst_of_lt hkey hpriority)

/-- A flow is found only in a context that runs both tools. -/
theorem hasBothTools_of_found {d : Detector} (hd : d ∈ detectors digest)
    (hf : f ∈ detectedBy options ctx d) : ctx.hasBothTools = true := by
  unfold detectedBy at hf
  split at hf
  · rename_i hruns
    rw [applies_of_registered (mem_sortBy.mp hd)] at hruns
    exact (Bool.and_eq_true _ _ |>.mp hruns).2
  · cases hf

/-- A key whose first flow is not sure enough is not reported. -/
theorem key_ne_of_first_not_sure {lists : List (List Flow)} {first : Flow}
    (hfirst : first ∈ mergeFlows lists) (hshort : options.minConfidence.le first.confidence = false) :
    ∀ r ∈ selectFlows options lists, r.key ≠ first.key := by
  intro r hr hkey
  obtain ⟨hmerged, hsure⟩ := List.mem_filter.mp (mem_atLeast_of_mem_selectFlows hr)
  have hkeys : ((mergeFlows lists).map Flow.key).Nodup := by
    unfold mergeFlows
    rw [firstByKey_eq_firstBy]
    exact nodup_keys_firstBy [] _
  obtain rfl := List.inj_on_of_nodup_map hkeys hmerged hfirst hkey
  rw [hshort] at hsure
  cases hsure

/-- With room for everything that is found, a key whose first flow is sure enough is reported. -/
theorem first_reported_of_room {lists : List (List Flow)} {first : Flow}
    (room : (lists.flatten.length : Int) ≤ options.maxFlows) (hfirst : first ∈ mergeFlows lists)
    (hsure : options.minConfidence.le first.confidence = true) : first ∈ selectFlows options lists := by
  have hsub : (atLeast options.minConfidence (mergeFlows lists)).Sublist lists.flatten := by
    unfold mergeFlows
    rw [firstByKey_eq_firstBy]
    exact List.filter_sublist.trans (firstBy_sublist [] _)
  have hlength := hsub.length_le
  exact mem_selectFlows_of_room (by omega) (List.mem_filter.mpr ⟨hfirst, hsure⟩)

/-- With room for everything that is found, the key of a flow that an enabled detector finds and that is
sure enough is reported, unless the first flow of the key is not sure enough; then no flow of the key is
reported.  That happens in four ways only, never to a flow that passes through a variable, and never when
a confidence of 62 is enough. -/
theorem sure_flow_reported_unless_weak_first
    (room : ((foundFlows options (detectors digest) ctx).flatten.length : Int) ≤ options.maxFlows)
    {d : Detector} (hd : d ∈ detectors digest) (hf : f ∈ detectedBy options ctx d)
    (hsure : options.minConfidence.le f.confidence = true) :
    (∃ r ∈ flowsInContext options (detectors digest) ctx, r.key = f.key) ∨
      ∃ first ∈ mergeFlows (foundFlows options (detectors digest) ctx), first.key = f.key ∧
        options.minConfidence.le first.confidence = false ∧
        (∀ r ∈ flowsInContext options (detectors digest) ctx, r.key ≠ f.key) ∧
        WeakFirst ctx first f ∧ f.pattern ≠ .outputToEnv ∧ options.minConfidence.le 62 = false := by
  obtain ⟨first, hfirst, hkey, hfirstConfidence, hfConfidence, hleast, hweak⟩ := exists_first_of_key hd hf
  have hreported : flowsInContext options (detectors digest) ctx =
      selectFlows options (foundFlows options (detectors digest) ctx) := by
    rw [flowsInContext, if_pos (hasBothTools_of_found hd hf)]
  rw [hreported]
  cases henough : options.minConfidence.le first.confidence with
  | true => exact Or.inl ⟨first, first_reported_of_room room hfirst henough, hkey⟩
  | false =>
      -- What is sure enough is surer than the first flow, which is not.
      have above : ∀ score : Int, options.minConfidence.le (.int score) = true →
          first.certainty ctx < score := by
        intro score hscore
        refine Int.not_le.mp fun hle => ?_
        rw [hfirstConfidence, Number.le_trans hscore (Number.int_le_int hle)] at henough
        cases henough
      have hlt : first.certainty ctx < f.certainty ctx := above _ (hfConfidence ▸ hsure)
      have hways : WeakFirst ctx first f := hweak.resolve_left (Int.not_le.mpr hlt)
      have hmany : options.minConfidence.le 62 = false :=
        Bool.eq_false_iff.mpr fun h => absurd (above 62 h) (Int.not_lt.mpr hleast)
      exact Or.inr ⟨first, hfirst, hkey, henough, hkey ▸ key_ne_of_first_not_sure hfirst henough, hways,
        hways.not_relay, hmany⟩

end

/-! ### Each of the four ways -/

/-- A step that runs a command, uploads a path or downloads an artifact. -/
inductive ArtifactStep where
  | runs (command : String)
  | uploads (path : String)
  | downloads

/-- The step as data. -/
def ArtifactStep.tree : ArtifactStep → Tree
  | runs command => .table [(.text "run", .text command)]
  | uploads path => .table [(.text "uses", .text "actions/upload-artifact@v4"),
      (.text "with", .table [(.text "path", .text path)])]
  | downloads => .table [(.text "uses", .text "actions/download-artifact@v4")]

/-- A job that makes something and a job that deploys it. -/
def artifactWorkflow (infra deploy : List ArtifactStep) (needs : List String) : Table :=
  [(.text "jobs", .table [
    (.text "infra", .table [(.text "steps", .list (infra.map ArtifactStep.tree))]),
    (.text "deploy", .table [(.text "needs", .list (needs.map .text)),
      (.text "steps", .list (deploy.map ArtifactStep.tree))])])]

/-- One value set twice, four steps after the last call before it and one step after it. -/
def farThenNear : Table :=
  scriptWorkflow ["terraform output x", "echo", "echo", "echo", "helm --set k=$(terraform output x)",
    "helm --set k=$(terraform output x)"]

/-- A chart with a values file that looks related to one file and a query on another. -/
def relatedThenQueried : Table :=
  scriptWorkflow ["terraform output -json > a.json", "terraform output -json > b.json",
    "helm upgrade web ./c -f <(jq '.' b.json) -f a.json"]

/-- A chart with a values file that looks related to a file, and with the file of an artifact. -/
def relatedThenTransferred : Table :=
  artifactWorkflow [.runs "terraform output -json > tf-out.json", .uploads "json_outputs.json"]
    [.downloads, .runs "helm upgrade web ./c -f helm.yaml -f json_outputs.json"] ["infra"]

/-- A chart with the files of two artifacts, of which the second looks like outputs. -/
def plainThenOutputs : Table :=
  artifactWorkflow [.runs "terraform apply", .uploads "dist.yaml", .uploads "artifact_data.tfoutput"]
    [.downloads, .runs "helm upgrade web ./c -f dist.yaml -f artifact_data.tfoutput"] []

/-- The key of a flow, its pattern and its confidence. -/
def Flow.gist (f : Flow) : FlowKey × FlowPattern × Number := (f.key, f.pattern, f.confidence)

/-- What is found in a workflow, and what is reported of it. -/
def foundAndReported (options : DetectorOptions) (workflow : Table) :
    List (FlowKey × FlowPattern × Number) × List (FlowKey × FlowPattern × Number) :=
  let ctx := Context.ofTable workflow "ci.yml"
  ((foundFlows options (detectors plainDigest) ctx).flatten.map Flow.gist,
    (flowsInContext options (detectors plainDigest) ctx).map Flow.gist)

/-- In each of the four ways two flows of a key are found, the second of which is sure enough, and none
is reported. -/
theorem lost_in_each_way :
    foundAndReported { minConfidence := 91 } farThenNear =
      ([(⟨"d", "x", "d", "k"⟩, .directOutput, 90), (⟨"d", "x", "d", "k"⟩, .directOutput, 92)], []) ∧
    foundAndReported { minConfidence := 70 } relatedThenQueried =
      ([(⟨"d", "json_outputs", "d", "values"⟩, .outputToFile, 65),
        (⟨"d", "json_outputs", "d", "values"⟩, .outputToFile, 74)], []) ∧
    foundAndReported { minConfidence := 66 } relatedThenTransferred =
      ([(⟨"infra", "json_outputs", "deploy", "values"⟩, .outputToFile, 65),
        (⟨"infra", "json_outputs", "deploy", "values"⟩, .artifactTransfer, 67)], []) ∧
    foundAndReported { minConfidence := 63 } plainThenOutputs =
      ([(⟨"infra", "artifact_data", "deploy", "values"⟩, .artifactTransfer, 62),
        (⟨"infra", "artifact_data", "deploy", "values"⟩, .artifactTransfer, 64)], []) := by
  refine ⟨?_, ?_, ?_, ?_⟩ <;> decide +kernel

/-- Two flows are found in the workflow with the query, and one of them has the confidence 74. -/
theorem relatedThenQueried_found :
    let options : DetectorOptions := { minConfidence := 70 }
    let ctx := Context.ofTable relatedThenQueried "ci.yml"
    ((foundFlows options (detectors plainDigest) ctx).flatten.length : Int) ≤ options.maxFlows ∧
      flowsInContext options (detectors plainDigest) ctx = [] ∧
      ∃ d ∈ detectors plainDigest, ∃ f ∈ detectedBy options ctx d,
        options.minConfidence.le f.confidence = true := by
  intro options ctx
  obtain ⟨hfound, hreported⟩ := Prod.mk.inj lost_in_each_way.2.1
  have hlength := congrArg List.length hfound
  rw [List.length_map] at hlength
  refine ⟨?_, List.map_eq_nil_iff.mp hreported, ?_⟩
  · rw [hlength]
    decide
  · obtain ⟨f, hf, hgist⟩ : ∃ f ∈ (foundFlows options (detectors plainDigest) ctx).flatten,
        f.gist = (⟨"d", "json_outputs", "d", "values"⟩, .outputToFile, 74) :=
      List.mem_map.mp (hfound ▸ List.mem_cons_of_mem _ List.mem_cons_self)
    obtain ⟨flows, hflows, hf⟩ := List.mem_flatten.mp hf
    rw [foundFlows_eq_map] at hflows
    obtain ⟨d, hd, rfl⟩ := List.mem_map.mp hflows
    have hconfidence : f.confidence = 74 := congrArg (fun gist => gist.2.2) hgist
    refine ⟨d, hd, f, hf, ?_⟩
    rw [hconfidence]
    decide

/-- A flow that is sure enough can be lost although there is room for everything that is found. -/
theorem sure_flow_lost :
    ¬ ∀ (digest : Digest) (options : DetectorOptions) (ctx : Context),
      ((foundFlows options (detectors digest) ctx).flatten.length : Int) ≤ options.maxFlows →
      ∀ d ∈ detectors digest, ∀ f ∈ detectedBy options ctx d,
        options.minConfidence.le f.confidence = true →
        ∃ r ∈ flowsInContext options (detectors digest) ctx, r.key = f.key := by
  intro kept
  obtain ⟨room, hnone, d, hd, f, hf, hsure⟩ := relatedThenQueried_found
  obtain ⟨r, hr, -⟩ := kept _ _ _ room d hd f hf hsure
  rw [hnone] at hr
  cases hr

/-- The query on the very file gives way to the values file that looks related. -/
theorem sure_flow_reported_unless_weak_first_query :
    let options : DetectorOptions := { minConfidence := 70 }
    let ctx := Context.ofTable relatedThenQueried "ci.yml"
    ((foundFlows options (detectors plainDigest) ctx).flatten.length : Int) ≤ options.maxFlows ∧
      ∃ d ∈ detectors plainDigest, ∃ f ∈ detectedBy options ctx d,
        options.minConfidence.le f.confidence = true ∧
        ∃ first ∈ mergeFlows (foundFlows options (detectors plainDigest) ctx), first.key = f.key ∧
          WeakFirst ctx first f := by
  intro options ctx
  obtain ⟨room, hnone, d, hd, f, hf, hsure⟩ := relatedThenQueried_found
  refine ⟨room, d, hd, f, hf, hsure, ?_⟩
  rcases sure_flow_reported_unless_weak_first room hd hf hsure with
    ⟨r, hr, -⟩ | ⟨first, hfirst, hkey, -, -, hways, -⟩
  · rw [hnone] at hr
    cases hr
  · exact ⟨first, hfirst, hkey, hways⟩

end DeployTrace
