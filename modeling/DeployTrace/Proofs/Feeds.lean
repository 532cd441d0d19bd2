/-
  DeployTrace/Proofs/Feeds.lean --- flows become feeds exactly where both of their ends are nodes.

  WHAT THIS FILE IS FOR.  Flows and the edges from jobs to nodes are found independently of each other.
  A feed joins them: its source is a node that declares the flow's output, and its target is what the
  Helm step acts on in which the flow ends.  The join goes by a name of the job that is made anew from
  the file and the flow, by the number of the step, and by the name of the output.

  WHAT IS TO HOLD.  `Scene.Resolution` goes through the flows in order and says, without any names of jobs,
  which of them have a feed and which feed that is.  A job's edges are those that linking THIS job made
  (`Scene.Links`), so that the join is right only as long as the names of the jobs keep them apart.
-/
import DeployTrace.Link.Feed
import DeployTrace.Proofs.Linking
import DeployTrace.Proofs.StepKinds

set_option autoImplicit false

namespace DeployTrace

open Text

/-- The short names of a digest keep some texts apart. -/
def Digest.KeepsApart (digest : Digest) (texts : List String) : Prop :=
  ∀ s ∈ texts, ∀ t ∈ texts, digest.short s = digest.short t → s = t

theorem Digest.KeepsApart.short_inj {digest : Digest} {texts : List String} {s t : String}
    (apart : digest.KeepsApart texts) (hs : s ∈ texts) (ht : t ∈ texts) :
    digest.short s = digest.short t ↔ s = t :=
  ⟨apart s hs t ht, congrArg digest.short⟩

/-! ## What feeds are to be -/

/-- The jobs of a workflow and the nodes around it, linked by edges. -/
structure Scene where
  digest : Digest
  file : String
  linker : LinkerOptions
  infra : Infrastructure
  jobs : List JobNode
  edges : List OperatesOn

namespace Scene

variable (s : Scene)

/-- The jobs are those of a workflow, the edges are those that linking them makes, the facts about nodes
are texts, and the names of the jobs keep them apart. -/
structure Of (workflow : Table) (scanId : String) : Prop where
  jobs : ∃ graph, PipelineGraph.ofWorkflow ⟨s.digest, s.file, scanId⟩ (.table workflow) = .ok graph ∧
    graph.jobs = s.jobs
  facts : ∀ n ∈ s.infra.terraform ++ s.infra.helm, n.HasTextFacts
  edges : linkJobs s.digest s.linker s.infra s.jobs = .ok s.edges
  apart : s.digest.KeepsApart (s.jobs.map fun j => jobText s.file j.jobName)

/-- A node that declares the output of a flow. -/
def Declares (f : Flow) (n : InfraNode) : Prop :=
  n ∈ s.infra.terraform ∧ n.kind = .terraformOutput ∧ n.fact "outputName" = .text f.source.name

/-- An edge that linking a job made; it goes from the node of that job. -/
def Links (job : JobNode) (e : OperatesOn) : Prop :=
  e.source = job.id ∧ ∃ links, linkJob s.digest s.linker s.infra job = .ok links ∧ e ∈ links.edges

/-- An edge from the Helm operation in which a flow ends. -/
def Serves (f : Flow) (e : OperatesOn) : Prop :=
  e.kind = .helm ∧ e.stepIndex = f.target.stepIndex ∧
    ∃ job ∈ s.jobs, job.jobName = f.target.jobId ∧ s.Links job e

/-- Both ends of a flow are nodes. -/
def Resolves (f : Flow) : Prop := (∃ n, s.Declares f n) ∧ ∃ e ∈ s.edges, s.Serves f e

/-- The feed of a flow: from a node that declares its output to the target of the first of the surest
edges from the operation in which it ends. -/
structure IsFeed (scanId : String) (f : Flow) (feed : FeedsInto) : Prop where
  flow : feed.flow = f
  scan : feed.scanId = scanId
  source : ∃ n, s.Declares f n ∧ feed.source = n.id
  target : ∃ before e after, s.edges = before ++ e :: after ∧ s.Serves f e ∧ feed.target = e.target ∧
    (∀ a ∈ before, s.Serves f a → a.confidence.lt e.confidence = true) ∧
    ∀ a ∈ after, s.Serves f a → e.confidence.lt a.confidence = false

/-- Flows in order with their feeds: one for each flow whose ends are nodes, and none for the others. -/
inductive Resolution (scanId : String) : List Flow → List FeedsInto → Prop
  | nil : Resolution scanId [] []
  | resolved {f : Flow} {feed : FeedsInto} {flows : List Flow} {feeds : List FeedsInto}
      (ends : s.Resolves f) (isFeed : s.IsFeed scanId f feed) (rest : Resolution scanId flows feeds) :
      Resolution scanId (f :: flows) (feed :: feeds)
  | passed {f : Flow} {flows : List Flow} {feeds : List FeedsInto} (lost : ¬ s.Resolves f)
      (rest : Resolution scanId flows feeds) : Resolution scanId (f :: flows) feeds

end Scene

/-! ## Edges of jobs -/

theorem exists_of_bind_eq_ok {ε α β : Type} {x : Except ε α} {next : α → Except ε β} {b : β}
    (h : (x >>= next) = .ok b) : ∃ a, x = .ok a ∧ next a = .ok b := by
  cases x with
  | error fault => cases h
  | ok a => exact ⟨a, rfl, h⟩

section

variable {digest : Digest} {options : LinkerOptions} {infra : Infrastructure} {e : OperatesOn}

theorem edge_of_linkOperations {scorer : Scorer} {nodes : List InfraNode} {job : JobNode}
    {operations : List Operation} {links : Links}
    (h : linkOperations digest scorer options nodes job operations = .ok links) (he : e ∈ links.edges) :
    ∃ m, e = LinkMatch.edge digest job m := by
  obtain ⟨found, -, hlinks⟩ := exists_of_bind_eq_ok h
  cases hlinks
  obtain ⟨m, -, rfl⟩ := List.mem_map.mp he
  exact ⟨m, rfl⟩

/-- Every edge that linking a job makes shows a match of the job. -/
theorem edge_of_linkJob {job : JobNode} {links : Links} (h : linkJob digest options infra job = .ok links)
    (he : e ∈ links.edges) : ∃ m, e = LinkMatch.edge digest job m := by
  obtain ⟨terraform, hterraform, h⟩ := exists_of_bind_eq_ok h
  obtain ⟨helm, hhelm, h⟩ := exists_of_bind_eq_ok h
  cases h
  rcases List.mem_append.mp he with he | he
  · exact edge_of_linkOperations hterraform he
  · exact edge_of_linkOperations hhelm he

/-- The edges of jobs are those that linking each of them makes. -/
theorem mem_linkJobs {jobs : List JobNode} {edges : List OperatesOn}
    (h : linkJobs digest options infra jobs = .ok edges) :
    e ∈ edges ↔ ∃ job ∈ jobs, ∃ links, linkJob digest options infra job = .ok links ∧ e ∈ links.edges := by
  obtain ⟨found, hfound, h⟩ := exists_of_bind_eq_ok h
  cases h
  obtain ⟨made, all⟩ := mapM_eq_ok_mem hfound
  rw [List.mem_flatMap]
  constructor
  · rintro ⟨links, hlinks, he⟩
    obtain ⟨job, hjob, hmade⟩ := made links hlinks
    exact ⟨job, hjob, links, hmade, he⟩
  · rintro ⟨job, hjob, links, hlinks, he⟩
    obtain ⟨links', hmem, hlinks'⟩ := all job hjob
    obtain rfl : links = links' := Except.ok.inj (hlinks.symm.trans hlinks')
    exact ⟨links, hmem, he⟩

end

/-! ## The surest edge -/

/-- Of edges with integers as confidences, the surest is the first that none is surer than. -/
theorem surest?_eq_some {edges : List OperatesOn} {e : OperatesOn}
    (whole : ∀ a ∈ edges, a.confidence.IsFinite) (h : surest? edges = some e) :
    ∃ before after, edges = before ++ e :: after ∧
      (∀ a ∈ before, a.confidence.lt e.confidence = true) ∧
      ∀ a ∈ after, e.confidence.lt a.confidence = false := by
  cases edges with
  | nil => cases h
  | cons first rest =>
      have order : WeakOrder fun a b : OperatesOn => decide (b.confidence.value < a.confidence.value) :=
        weakOrder_rat.flip.comap fun a : OperatesOn => a.confidence.value
      have hvalues : ∀ a ∈ first :: rest, ∀ b ∈ first :: rest,
          b.confidence.lt a.confidence = decide (b.confidence.value < a.confidence.value) :=
        fun a ha b hb => Number.lt_eq_decide (whole b hb) (whole a ha)
      have hbest := (foldl_best_congr hvalues).symm.trans (Option.some.inj h)
      obtain ⟨before, after, hsplit, hbefore, hafter⟩ := foldl_best_split order hbest
      have he : e ∈ first :: rest := by simp [hsplit]
      refine ⟨before, after, hsplit, ?_, ?_⟩
      · intro a ha
        have hmem : a ∈ first :: rest := by simp [hsplit, ha]
        rw [Number.lt_eq_decide (whole a hmem) (whole e he)]
        exact hbefore a ha
      · intro a ha
        have hmem : a ∈ first :: rest := by simp [hsplit, ha]
        rw [Number.lt_eq_decide (whole e he) (whole a hmem)]
        exact hafter a ha

theorem isSome_surest? {edges : List OperatesOn} (hne : edges ≠ []) : (surest? edges).isSome = true := by
  obtain ⟨first, rest, rfl⟩ := List.exists_cons_of_ne_nil hne
  rfl

/-! ## The node of an output -/

theorem exists_findNode? {check : InfraNode → Except LinkFault Bool} {nodes : List InfraNode}
    (total : ∀ n ∈ nodes, ∃ b, check n = .ok b) :
    ∃ found, findNode? check nodes = .ok found ∧ ∀ n ∈ found, n ∈ nodes := by
  induction nodes with
  | nil => exact ⟨none, rfl, by simp⟩
  | cons n rest ih =>
      obtain ⟨b, hb⟩ := total n List.mem_cons_self
      obtain ⟨found, hfound, hmem⟩ := ih fun m hm => total m (List.mem_cons_of_mem n hm)
      unfold findNode?
      rw [hb]
      cases b with
      | true => exact ⟨some n, rfl, by simp⟩
      | false => exact ⟨found, hfound, fun m hm => List.mem_cons_of_mem n (hmem m hm)⟩

theorem exists_moduleEndsWith {n : InfraNode} (h : n.HasTextFacts) (dir : String) :
    ∃ b, moduleEndsWith dir n = .ok b := by
  unfold moduleEndsWith Table.field? Table.get?
  cases hfind : n.facts.find? fun entry => entry.1.same (.text "modulePath") with
  | none => exact ⟨_, rfl⟩
  | some entry =>
      obtain ⟨path, hpath⟩ := h entry (List.mem_of_find?_eq_some hfind)
      simp only [Option.map_some, hpath]
      exact ⟨_, rfl⟩

/-- Where the facts about nodes are texts, the node of an output is one that declares it, and there is
one if any node declares it. -/
theorem exists_outputNode? {nodes : List InfraNode} (facts : ∀ n ∈ nodes, n.HasTextFacts) (f : Flow) :
    ∃ found, outputNode? nodes f = .ok found ∧
      (∀ n ∈ found, n ∈ nodes.filter (declaresOutput f.source.name)) ∧
      (found = none → nodes.filter (declaresOutput f.source.name) = []) := by
  generalize hnamed : nodes.filter (declaresOutput f.source.name) = named
  have hfacts : ∀ n ∈ named, n.HasTextFacts := by
    intro n hn
    rw [← hnamed] at hn
    exact facts n (List.mem_filter.mp hn).1
  have first : ∃ found, (.ok named.head? : Except LinkFault (Option InfraNode)) = .ok found ∧
      (∀ n ∈ found, n ∈ named) ∧ (found = none → named = []) :=
    ⟨_, rfl, fun n hn => List.mem_of_head? hn, List.head?_eq_none_iff.mp⟩
  unfold outputNode?
  rw [hnamed]
  simp only
  split
  · exact first
  · obtain ⟨found, hfound, hmem⟩ := exists_findNode? fun n hn =>
      exists_moduleEndsWith (hfacts n hn) (stripOf ['.', '/'] (f.source.workingDir.getD ""))
    rw [hfound]
    cases found with
    | none => exact first
    | some n => exact ⟨some n, rfl, hmem, by simp⟩

theorem declaresOutput_iff {name : String} {n : InfraNode} :
    declaresOutput name n = true ↔ n.kind = .terraformOutput ∧ n.fact "outputName" = .text name := by
  unfold declaresOutput
  rw [Bool.and_eq_true, beq_iff_eq]
  refine and_congr_right fun _ => ?_
  split
  · rename_i other heq
    rw [heq]
    simp
  · rename_i hother
    constructor
    · intro h
      cases h
    · intro h
      exact absurd h (hother name)

/-! ## One flow -/

namespace Scene

variable {s : Scene} {workflow : Table} {scanId : String} {f : Flow}

theorem mem_named {n : InfraNode} :
    n ∈ s.infra.terraform.filter (declaresOutput f.source.name) ↔ s.Declares f n := by
  rw [List.mem_filter, declaresOutput_iff]
  exact Iff.rfl

/-- The name of a job is made from the file and its key. -/
theorem Of.id_eq (h : s.Of workflow scanId) {job : JobNode} (hjob : job ∈ s.jobs) :
    job.id = jobId s.digest s.file job.jobName := by
  obtain ⟨graph, hgraph, hjobs⟩ := h.jobs
  cases hgraph
  rw [← hjobs] at hjob
  obtain ⟨entry, -, rfl⟩ := List.mem_map.mp hjob
  rfl

/-- The names of jobs keep them apart. -/
theorem Of.jobName_eq (h : s.Of workflow scanId) {job job' : JobNode} (hjob : job ∈ s.jobs)
    (hjob' : job' ∈ s.jobs) (hid : jobId s.digest s.file job.jobName = jobId s.digest s.file job'.jobName) :
    job.jobName = job'.jobName := by
  have hshort := (String.append_right_inj "job-").mp hid
  have htext := (h.apart.short_inj (List.mem_map_of_mem hjob) (List.mem_map_of_mem hjob')).mp hshort
  exact (String.append_right_inj _).mp htext

/-- The edges chosen by the name of the job are those that serve the flow. -/
theorem Of.mem_targetEdges (h : s.Of workflow scanId) {target : JobNode} (htarget : target ∈ s.jobs)
    (hname : target.jobName = f.target.jobId) {e : OperatesOn} (he : e ∈ s.edges) :
    (e.source == jobId s.digest s.file f.target.jobId && e.kind == .helm &&
      e.stepIndex == f.target.stepIndex) = true ↔ s.Serves f e := by
  simp only [Bool.and_eq_true, beq_iff_eq]
  constructor
  · rintro ⟨⟨hsource, hkind⟩, hindex⟩
    obtain ⟨job, hjob, links, hlinks, hmem⟩ := (mem_linkJobs h.edges).mp he
    obtain ⟨m, rfl⟩ := edge_of_linkJob hlinks hmem
    have hid : job.id = jobId s.digest s.file target.jobName := hname ▸ hsource
    rw [h.id_eq hjob] at hid
    refine ⟨hkind, hindex, job, hjob, (h.jobName_eq hjob htarget hid).trans hname, rfl, links, hlinks, hmem⟩
  · rintro ⟨hkind, hindex, job, hjob, hjobName, hsource, -⟩
    rw [hsource, h.id_eq hjob, hjobName]
    exact ⟨⟨rfl, hkind⟩, hindex⟩

/-- The surest of the edges chosen by the name of the job is the first of the surest that serve the
flow. -/
theorem Of.surest_target (h : s.Of workflow scanId) {target : JobNode} (htarget : target ∈ s.jobs)
    (hname : target.jobName = f.target.jobId) {e : OperatesOn}
    (he : surest? (targetEdges s.digest s.file s.edges f) = some e) :
    ∃ before after, s.edges = before ++ e :: after ∧ s.Serves f e ∧
      (∀ a ∈ before, s.Serves f a → a.confidence.lt e.confidence = true) ∧
      ∀ a ∈ after, s.Serves f a → e.confidence.lt a.confidence = false := by
  have whole : ∀ a ∈ targetEdges s.digest s.file s.edges f, a.confidence.IsFinite := by
    intro a ha
    obtain ⟨job, -, links, hlinks, hmem⟩ := (mem_linkJobs h.edges).mp (List.mem_filter.mp ha).1
    obtain ⟨m, rfl⟩ := edge_of_linkJob hlinks hmem
    exact Number.isFinite_int _
  obtain ⟨chosen, chosen', hsplit, hbefore, hafter⟩ := surest?_eq_some whole he
  obtain ⟨front, back, hedges, rfl, hback⟩ := List.filter_eq_append_iff.mp hsplit
  obtain ⟨between, after, rfl, hskipped, hkept, rfl⟩ := List.filter_eq_cons_iff.mp hback
  have hmem {a : OperatesOn} (ha : a ∈ front ++ between ++ e :: after) : a ∈ s.edges := by
    rw [hedges, ← List.append_assoc]
    exact ha
  refine ⟨front ++ between, after, by rw [hedges, List.append_assoc],
    (h.mem_targetEdges htarget hname (hmem (by simp))).mp hkept, ?_, ?_⟩
  · intro a ha hserves
    have hchosen := (h.mem_targetEdges htarget hname (hmem (List.mem_append_left _ ha))).mpr hserves
    rcases List.mem_append.mp ha with ha | ha
    · exact hbefore a (List.mem_filter.mpr ⟨ha, hchosen⟩)
    · exact absurd hchosen (hskipped a ha)
  · intro a ha hserves
    have hchosen := (h.mem_targetEdges htarget hname
      (hmem (List.mem_append_right _ (List.mem_cons_of_mem e ha)))).mpr hserves
    exact hafter a (List.mem_filter.mpr ⟨ha, hchosen⟩)

/-- A flow that ends in a job of the scene has its feed if its ends are nodes, and none otherwise. -/
theorem Of.resolveFlow_eq (h : s.Of workflow scanId) {target : JobNode} (htarget : target ∈ s.jobs)
    (hname : target.jobName = f.target.jobId) :
    ∃ found, resolveFlow s.digest scanId s.file s.infra.terraform s.edges f = .ok found ∧
      (found = none → ¬ s.Resolves f) ∧ ∀ feed, found = some feed → s.Resolves f ∧ s.IsFeed scanId f feed := by
  obtain ⟨source, hsource, hdeclares, hnone⟩ :=
    exists_outputNode? (fun n hn => h.facts n (List.mem_append_left _ hn)) f
  unfold resolveFlow
  rw [hsource]
  cases source with
  | none =>
      refine ⟨none, rfl, ?_, by simp⟩
      rintro - ⟨⟨n, hn⟩, -⟩
      have hmem := mem_named.mpr hn
      rw [hnone rfl] at hmem
      cases hmem
  | some n =>
      have hn : s.Declares f n := mem_named.mp (hdeclares n rfl)
      refine ⟨_, rfl, ?_, ?_⟩
      · rintro hlost ⟨-, e, he, hserves⟩
        have hmem : e ∈ targetEdges s.digest s.file s.edges f :=
          List.mem_filter.mpr ⟨he, (h.mem_targetEdges htarget hname he).mpr hserves⟩
        have hsurest := isSome_surest? (List.ne_nil_of_mem hmem)
        rw [Option.map_eq_none_iff.mp hlost] at hsurest
        cases hsurest
      · intro feed hfeed
        obtain ⟨e, he, rfl⟩ := Option.map_eq_some_iff.mp hfeed
        obtain ⟨before, after, hsplit, hserves, hbefore, hafter⟩ := h.surest_target htarget hname he
        have hmem : e ∈ s.edges := by simp [hsplit]
        exact ⟨⟨⟨n, hn⟩, e, hmem, hserves⟩, rfl, rfl, ⟨n, hn, rfl⟩, before, e, after, hsplit, hserves, rfl,
          hbefore, hafter⟩

/-! ## All flows -/

theorem Of.resolveFlows_eq (h : s.Of workflow scanId) {flows : List Flow}
    (targets : ∀ f ∈ flows, ∃ job ∈ s.jobs, job.jobName = f.target.jobId) :
    ∃ feeds, resolveFlows s.digest scanId s.file s.infra.terraform s.edges flows = .ok feeds ∧
      s.Resolution scanId flows feeds := by
  unfold resolveFlows
  induction flows with
  | nil => exact ⟨[], rfl, .nil⟩
  | cons f rest ih =>
      obtain ⟨job, hjob, hname⟩ := targets f List.mem_cons_self
      obtain ⟨found, hfound, hlost, hfeed⟩ := h.resolveFlow_eq hjob hname
      obtain ⟨feeds, hrest, resolution⟩ := ih fun g hg => targets g (List.mem_cons_of_mem f hg)
      obtain ⟨results, hresults, hfeeds⟩ := exists_of_bind_eq_ok hrest
      obtain rfl : results.filterMap id = feeds := Except.ok.inj hfeeds
      rw [List.mapM_cons, hfound, hresults]
      cases found with
      | none => exact ⟨_, rfl, .passed (hlost rfl) resolution⟩
      | some feed =>
          obtain ⟨ends, isFeed⟩ := hfeed feed rfl
          exact ⟨_, rfl, .resolved ends isFeed resolution⟩

end Scene

/-- The flows that are reported for a workflow become feeds, in their order: one for each flow of which
both ends are nodes, from a node that declares the output to the target of the first of the surest edges
from the Helm operation, and none for the others. -/
theorem feeds_resolve {s : Scene} {workflow : Table} {scanId : String} (h : s.Of workflow scanId)
    {options : DetectorOptions} {flows : List Flow}
    (hflows : detectFlows s.digest options (.table workflow) s.file = .ok flows) :
    ∃ feeds, resolveFlows s.digest scanId s.file s.infra.terraform s.edges flows = .ok feeds ∧
      s.Resolution scanId flows feeds := by
  refine h.resolveFlows_eq fun f hf => ?_
  obtain ⟨pattern, hwell⟩ := wellFormed_of_reported hflows hf
  obtain ⟨⟨name, job⟩, hjob, hname⟩ := List.mem_map.mp hwell.target_job
  obtain ⟨graph, hgraph, hjobs⟩ := h.jobs
  cases hgraph
  refine ⟨JobNode.ofJob ⟨s.digest, s.file, scanId⟩ name job, ?_, hname⟩
  rw [← hjobs]
  exact List.mem_map.mpr ⟨_, hjob, rfl⟩

/-! ### Two releases and one output -/

/-- The node of an output. -/
def outputNode (name : String) : InfraNode where
  id := "output-" ++ name
  kind := .terraformOutput
  name := name
  filePath := "network/outputs.tf"
  facts := [(.text "outputName", .text name)]

/-- The node of a release. -/
def releaseNode (name : String) : InfraNode where
  id := "release-" ++ name
  kind := .helmRelease
  name := name
  filePath := "releases/apps.yaml"
  facts := [(.text "releaseName", .text name)]

/-- The nodes of outputs and of releases. -/
def plainInfra (outputs releases : List String) : Infrastructure where
  terraform := outputs.map outputNode
  helm := releases.map releaseNode

theorem hasTextFacts_plainInfra {outputs releases : List String} :
    ∀ n ∈ (plainInfra outputs releases).terraform ++ (plainInfra outputs releases).helm,
      n.HasTextFacts := by
  intro n hn entry hentry
  rcases List.mem_append.mp hn with hn | hn <;> obtain ⟨name, -, rfl⟩ := List.mem_map.mp hn <;>
    cases List.mem_singleton.mp hentry <;> exact ⟨_, rfl⟩

/-- The options by which likeness of names does not count. -/
def namesAside : LinkerOptions := { nameSimilarity := .bool false }

/-- The nodes of the jobs of a workflow, with names that show their texts. -/
def plainJobs (workflow : Table) : List JobNode :=
  (PipelineGraph.ofTable ⟨plainDigest, "ci.yml", "scan"⟩ workflow).jobs

/-- The jobs of a workflow, linked to the nodes of outputs and of releases. -/
def plainScene (workflow : Table) (outputs releases : List String) : Scene where
  digest := plainDigest
  file := "ci.yml"
  linker := namesAside
  infra := plainInfra outputs releases
  jobs := plainJobs workflow
  edges := (linkJobs plainDigest namesAside (plainInfra outputs releases) (plainJobs workflow)).toOption.getD []

theorem plainScene_of {workflow : Table} {outputs releases : List String}
    (linked : (linkJobs plainDigest namesAside (plainInfra outputs releases)
      (plainJobs workflow)).toOption.isSome = true) :
    (plainScene workflow outputs releases).Of workflow "scan" where
  jobs := ⟨PipelineGraph.ofTable ⟨plainDigest, "ci.yml", "scan"⟩ workflow, rfl, rfl⟩
  facts := hasTextFacts_plainInfra
  edges := by
    dsimp only [plainScene]
    revert linked
    cases linkJobs plainDigest namesAside (plainInfra outputs releases) (plainJobs workflow) with
    | error fault => exact fun linked => Bool.noConfusion linked
    | ok edges => exact fun _ => rfl
  apart := fun _ _ _ _ h => h

/-- Two jobs that upgrade a release in their first step, each with an output as a value. -/
def twoReleases : Table :=
  [(.text "web", .table [(.text "script", .text "helm upgrade web w --set k=$(terraform output vpc)")]),
    (.text "api", .table [(.text "script", .text "helm upgrade api a --set k=$(terraform output zone)")])]

/-- The two jobs, linked to the nodes of both releases and of one of the outputs. -/
def releaseScene : Scene := plainScene twoReleases ["vpc"] ["api", "web"]

theorem releaseScene_of : releaseScene.Of twoReleases "scan" := plainScene_of (by decide +kernel)

/-- The flows of the two jobs. -/
def releaseFlows : List Flow := flowsInContext {} (detectors plainDigest) (.ofTable twoReleases "ci.yml")

/-- The names of both ends of feeds. -/
def feedEnds (feeds : Except LinkFault (List FeedsInto)) : List (String × String) :=
  (feeds.toOption.getD []).map fun feed => (feed.source, feed.target)

/-- The feeds of some flows in a scene. -/
def Scene.feeds (s : Scene) (scanId : String) (flows : List Flow) : Except LinkFault (List FeedsInto) :=
  resolveFlows s.digest scanId s.file s.infra.terraform s.edges flows

/-- Of the two flows the one with a node at both ends becomes a feed. -/
theorem feeds_resolve_release : releaseScene.Of twoReleases "scan" ∧
    detectFlows plainDigest {} (.table twoReleases) "ci.yml" = .ok releaseFlows ∧ releaseFlows.length = 2 ∧
    feedEnds (releaseScene.feeds "scan" releaseFlows) = [("output-vpc", "release-web")] ∧
    ∃ feeds, releaseScene.feeds "scan" releaseFlows = .ok feeds ∧
      releaseScene.Resolution "scan" releaseFlows feeds := by
  have hflows : detectFlows plainDigest {} (.table twoReleases) "ci.yml" = .ok releaseFlows :=
    detectFlows_table twoReleases
  exact ⟨releaseScene_of, hflows, by decide +kernel, by decide +kernel,
    feeds_resolve releaseScene_of hflows⟩

end DeployTrace
