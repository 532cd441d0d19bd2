/-
  DeployTrace/Proofs/PipelineGraphs.lean --- the graph of a workflow pictures its jobs and what they need.

  WHAT THIS FILE IS FOR.  The graph of a workflow is read from the same table as the context in which flows
  are looked for, by other functions.  It is shown here that the two agree, for a table of any shape: there
  is one node for every job, in order, with the dependencies that detection goes by; one edge from the
  pipeline to each job; one edge for every declared dependency on a job of the workflow; and nothing else.
  What edges there are to be is said by `PipelineGraph.Joins`, and that each is there once by the list of
  their ends, which has no repetition.

  LIMITS.  A machine that refuses to write something of the workflow makes no graph of it.  What is written is
  listed by `graphWritings`, and nothing else can go wrong.

  THE NAMES.  Nodes and edges are named by short digests.  The names tell them apart where the digest keeps
  the texts apart that it is given for this graph.  The names of nodes are parts of the texts of edges, and
  are read back from them because a short digest has no colon in it.
-/
import Mathlib.Data.List.Nodup
import DeployTrace.Limited.Graph
import DeployTrace.Proofs.Identities
import DeployTrace.Proofs.Safety
import DeployTrace.Proofs.ShortestChains

set_option autoImplicit false

namespace DeployTrace

open Text

/-! ## Names without colons -/

/-- The short names that a digest makes have no colons in them. -/
def Digest.IsColonFree (digest : Digest) : Prop := ∀ text, ':' ∉ (digest.short text).toList

theorem IsNumeral.colon_notMem {text : Chars} (h : IsNumeral text) : ':' ∉ text :=
  fun hmem => absurd (h ':' hmem) (by decide)

/-- The digest in use makes hexadecimal digits. -/
theorem Digest.sha256_isColonFree : Digest.sha256.IsColonFree := by
  intro text hmem
  dsimp only [Digest.sha256, Sha256.hashText, Sha256.hash] at hmem
  rw [String.toList_ofList, String.toList_ofList] at hmem
  obtain ⟨word, -, hdigit⟩ := List.mem_flatMap.mp (List.mem_of_mem_take hmem)
  exact (isNumeral_hexDigits 8 _).colon_notMem hdigit

theorem Digest.KeepsApart.of_subset {digest : Digest} {texts some : List String}
    (apart : digest.KeepsApart texts) (subset : some ⊆ texts) : digest.KeepsApart some :=
  fun s hs t ht => apart s (subset hs) t (subset ht)

theorem Digest.keepsApart_of_nodup {digest : Digest} {texts : List String}
    (nodup : (texts.map digest.short).Nodup) : digest.KeepsApart texts :=
  fun _ hs _ ht hshort => List.inj_on_of_nodup_map nodup hs ht hshort

section

variable {digest : Digest} {file : String}

theorem Digest.IsColonFree.jobId (free : digest.IsColonFree) (job : String) :
    ':' ∉ (jobId digest file job).toList := by
  have hshort := free (jobText file job)
  unfold DeployTrace.jobId
  simpa using hshort

theorem Digest.IsColonFree.pipelineId (free : digest.IsColonFree) :
    ':' ∉ (pipelineId digest file).toList := by
  have hshort := free (pipelineText file)
  unfold DeployTrace.pipelineId
  simpa using hshort

theorem jobText_inj {job job' : String} : jobText file job = jobText file job' ↔ job = job' :=
  String.append_right_inj _

end

/-- Where equal names mean equal ends, things without repeated ends are without repeated names. -/
theorem nodup_map_of_nodup_map {α β γ : Type} {ends : α → β} {name : α → γ} {xs : List α}
    (nodup : (xs.map ends).Nodup) (shows : ∀ a ∈ xs, ∀ b ∈ xs, name a = name b → ends a = ends b) :
    (xs.map name).Nodup := by
  unfold List.Nodup at nodup ⊢
  rw [List.pairwise_map] at nodup ⊢
  exact nodup.imp_of_mem fun ha hb hne heq => hne (shows _ ha _ hb heq)

/-! ## What a graph is to show -/

/-- The text from which the name of a job's node is made. -/
def JobNode.nameText (j : JobNode) : String := jobText j.filePath j.jobName

/-- The text from which the name of an edge is made. -/
def PipelineEdge.nameText (e : PipelineEdge) : String := edgeText e.kind.name e.source e.target

/-- What an edge says, and of which nodes. -/
def PipelineEdge.ends (e : PipelineEdge) : PipelineEdgeKind × String × String := (e.kind, e.source, e.target)

namespace PipelineGraph

/-- The texts from which the names in a graph are made. -/
def nameTexts (g : PipelineGraph) : List String :=
  g.jobs.map JobNode.nameText ++ g.edges.map PipelineEdge.nameText

/-- What the edges of a graph are to join: the pipeline and each job, and a job and each job that declares
to depend on it. -/
inductive Joins (g : PipelineGraph) (ctx : Context) : PipelineEdgeKind × String × String → Prop
  | contains {job : JobNode} (mem : job ∈ g.jobs) : Joins g ctx (.contains, g.pipeline.id, job.id)
  | dependsOn {other job : JobNode} (mem_other : other ∈ g.jobs) (mem : job ∈ g.jobs)
      (declared : other.jobName ∈ ctx.dependenciesOf job.jobName) :
      Joins g ctx (.dependsOn, other.id, job.id)

/-- A graph of the jobs of a context. -/
structure Pictures (g : PipelineGraph) (ctx : Context) : Prop where
  /-- one node for every job, in order -/
  jobs : g.jobs.map JobNode.jobName = ctx.jobs.names
  dependencies : (g.jobs.map fun j => (j.jobName, j.dependsOn)) = ctx.dependencies
  operations : ∀ j ∈ g.jobs, j.operations = DeployTrace.operations (ctx.job j.jobName)
  /-- the edges that there are to be, and no others -/
  joined : ∀ ends, ends ∈ g.edges.map PipelineEdge.ends ↔ g.Joins ctx ends
  job_count : g.pipeline.jobCount = g.jobs.length
  terraform : g.pipeline.hasTerraformJobs = true ↔ ∃ j ∈ g.jobs, ∃ o ∈ j.operations, o.kind = .terraform
  helm : g.pipeline.hasHelmJobs = true ↔ ∃ j ∈ g.jobs, ∃ o ∈ j.operations, o.kind = .helm

/-- A graph in which nothing goes by the name of something else. -/
structure TellsApart (g : PipelineGraph) : Prop where
  job_ids : (g.jobs.map JobNode.id).Nodup
  /-- each edge is there once -/
  joined_once : (g.edges.map PipelineEdge.ends).Nodup
  edge_ids : (g.edges.map PipelineEdge.id).Nodup

section

variable {s : GraphSetting} {workflow : Table} {j : JobNode} {e : PipelineEdge}

/-! ## The nodes -/

theorem mem_jobs : j ∈ (ofTable s workflow).jobs ↔
    ∃ name job, (name, job) ∈ extractJobs workflow ∧ j = JobNode.ofJob s name job := by
  constructor
  · intro h
    obtain ⟨⟨name, job⟩, hjob, rfl⟩ := List.mem_map.mp h
    exact ⟨name, job, hjob, rfl⟩
  · rintro ⟨name, job, hjob, rfl⟩
    exact List.mem_map.mpr ⟨_, hjob, rfl⟩

theorem jobNames_ofTable : (ofTable s workflow).jobs.map JobNode.jobName = (extractJobs workflow).names :=
  List.map_map

theorem nodup_jobNames : ((ofTable s workflow).jobs.map JobNode.jobName).Nodup := by
  rw [jobNames_ofTable]
  exact nodup_names_extractJobs workflow

theorem id_of_mem_jobs (h : j ∈ (ofTable s workflow).jobs) :
    j.id = jobId s.digest s.file j.jobName ∧ j.nameText = jobText s.file j.jobName := by
  obtain ⟨name, job, -, rfl⟩ := mem_jobs.mp h
  exact ⟨rfl, rfl⟩

theorem dependsOn_of_mem_jobs (h : j ∈ (ofTable s workflow).jobs) :
    j.dependsOn = (Context.ofTable workflow s.file).dependenciesOf j.jobName := by
  obtain ⟨name, job, hjob, rfl⟩ := mem_jobs.mp h
  exact (Context.dependenciesOf_ofTable hjob).symm

/-- Nodes of jobs have different names, since the jobs have different keys. -/
theorem nodup_job_ids (apart : s.digest.KeepsApart ((ofTable s workflow).jobs.map JobNode.nameText)) :
    ((ofTable s workflow).jobs.map JobNode.id).Nodup := by
  refine nodup_map_of_nodup_map nodup_jobNames ?_
  intro a ha b hb hid
  have hshort : s.digest.short a.nameText = s.digest.short b.nameText := by
    rw [(id_of_mem_jobs ha).1, (id_of_mem_jobs hb).1, jobId, jobId, String.append_right_inj] at hid
    rwa [(id_of_mem_jobs ha).2, (id_of_mem_jobs hb).2]
  have htext := apart _ (List.mem_map_of_mem ha) _ (List.mem_map_of_mem hb) hshort
  rw [(id_of_mem_jobs ha).2, (id_of_mem_jobs hb).2] at htext
  exact jobText_inj.mp htext

/-! ## The edges -/

/-- The ends of the edges: first those of the pipeline's own, and then those to each job. -/
theorem ends_ofTable : (ofTable s workflow).edges.map PipelineEdge.ends =
    (ofTable s workflow).jobs.map (fun j => (.contains, (ofTable s workflow).pipeline.id, j.id)) ++
      (ofTable s workflow).jobs.flatMap fun j =>
        (j.dependsOn.filterMap (jobNamed? (ofTable s workflow).jobs)).map fun other =>
          (.dependsOn, other.id, j.id) := by
  have hdependency : ∀ jobs j, (dependencyEdges s.digest jobs j).map PipelineEdge.ends =
      (j.dependsOn.filterMap (jobNamed? jobs)).map fun other => (.dependsOn, other.id, j.id) := by
    intro jobs j
    unfold dependencyEdges
    rw [List.map_map]
    rfl
  show List.map PipelineEdge.ends (_ ++ _) = _
  rw [List.map_append, List.map_map, List.map_flatMap]
  simp only [hdependency]
  rfl

theorem jobNamed?_eq_some {jobs : List JobNode} {name : String} {other : JobNode}
    (h : jobNamed? jobs name = some other) : other ∈ jobs ∧ other.jobName = name :=
  ⟨List.mem_of_find?_eq_some h, by simpa using List.find?_some h⟩

/-- A job is found by its key. -/
theorem jobNamed?_of_mem (h : j ∈ (ofTable s workflow).jobs) :
    jobNamed? (ofTable s workflow).jobs j.jobName = some j := by
  have hsome : (jobNamed? (ofTable s workflow).jobs j.jobName).isSome = true :=
    List.find?_isSome.mpr ⟨j, h, by simp⟩
  obtain ⟨other, hother⟩ := Option.isSome_iff_exists.mp hsome
  obtain ⟨hmem, hname⟩ := jobNamed?_eq_some hother
  rw [hother, List.inj_on_of_nodup_map nodup_jobNames hmem h hname]

theorem mem_ends (ends : PipelineEdgeKind × String × String) :
    ends ∈ (ofTable s workflow).edges.map PipelineEdge.ends ↔
      (ofTable s workflow).Joins (.ofTable workflow s.file) ends := by
  rw [ends_ofTable, List.mem_append]
  constructor
  · rintro (h | h)
    · obtain ⟨j, hj, rfl⟩ := List.mem_map.mp h
      exact .contains hj
    · obtain ⟨j, hj, h⟩ := List.mem_flatMap.mp h
      obtain ⟨other, hother, rfl⟩ := List.mem_map.mp h
      obtain ⟨name, hname, hfound⟩ := List.mem_filterMap.mp hother
      obtain ⟨hmem, rfl⟩ := jobNamed?_eq_some hfound
      exact .dependsOn hmem hj (dependsOn_of_mem_jobs hj ▸ hname)
  · intro h
    cases h with
    | contains hj => exact Or.inl (List.mem_map_of_mem hj)
    | @dependsOn other j hother hj hdeclared =>
        rw [← dependsOn_of_mem_jobs hj] at hdeclared
        have hfound : other ∈ j.dependsOn.filterMap (jobNamed? (ofTable s workflow).jobs) :=
          List.mem_filterMap.mpr ⟨_, hdeclared, jobNamed?_of_mem hother⟩
        exact Or.inr (List.mem_flatMap.mpr ⟨j, hj, List.mem_map_of_mem hfound⟩)

/-- No two edges say the same of the same nodes: keys are looked up once for every declared dependency, and
these are declared once. -/
theorem nodup_ends (ids : ((ofTable s workflow).jobs.map JobNode.id).Nodup) :
    ((ofTable s workflow).edges.map PipelineEdge.ends).Nodup := by
  rw [ends_ofTable]
  refine List.nodup_append.mpr ⟨?_, List.nodup_flatMap.mpr ⟨?_, ?_⟩, ?_⟩
  · refine nodup_map_of_nodup_map ids ?_
    intro a _ b _ heq
    exact (Prod.mk.inj (Prod.mk.inj heq).2).2
  · intro j hj
    obtain ⟨name, job, -, rfl⟩ := mem_jobs.mp hj
    have once : ((JobNode.ofJob s name job).dependsOn.filterMap
        (jobNamed? (ofTable s workflow).jobs)).Nodup := by
      refine List.Nodup.filterMap ?_ (nodup_addNew List.nodup_nil)
      intro a b other ha hb
      exact (jobNamed?_eq_some ha).2.symm.trans (jobNamed?_eq_some hb).2
    refine List.Nodup.map_on ?_ once
    intro a ha b hb heq
    obtain ⟨_, -, hfound⟩ := List.mem_filterMap.mp ha
    obtain ⟨_, -, hfound'⟩ := List.mem_filterMap.mp hb
    exact List.inj_on_of_nodup_map ids (jobNamed?_eq_some hfound).1 (jobNamed?_eq_some hfound').1
      (Prod.mk.inj (Prod.mk.inj heq).2).1
  · refine (List.pairwise_map.mp ids).imp ?_
    intro a b hne ends ha hb
    obtain ⟨_, -, rfl⟩ := List.mem_map.mp ha
    obtain ⟨_, -, heq⟩ := List.mem_map.mp hb
    exact hne (Prod.mk.inj (Prod.mk.inj heq).2).2.symm
  · intro ends hcontains other hdepends
    obtain ⟨_, -, rfl⟩ := List.mem_map.mp hcontains
    obtain ⟨_, -, h⟩ := List.mem_flatMap.mp hdepends
    obtain ⟨_, -, rfl⟩ := List.mem_map.mp h
    exact fun heq => PipelineEdgeKind.noConfusion (Prod.mk.inj heq).1

/-- Every edge goes by a name made from what it says, and starts from a node whose name has no colon. -/
theorem id_of_mem_edges (free : s.digest.IsColonFree) (h : e ∈ (ofTable s workflow).edges) :
    e.id = edgeId s.digest e.kind.name e.source e.target ∧ ':' ∉ e.source.toList := by
  rcases List.mem_append.mp h with h | h
  · obtain ⟨j, -, rfl⟩ := List.mem_map.mp h
    exact ⟨rfl, free.pipelineId⟩
  · obtain ⟨j, -, h⟩ := List.mem_flatMap.mp h
    obtain ⟨other, hother, rfl⟩ := List.mem_map.mp h
    obtain ⟨name, -, hfound⟩ := List.mem_filterMap.mp hother
    refine ⟨rfl, ?_⟩
    show ':' ∉ other.id.toList
    rw [(id_of_mem_jobs (jobNamed?_eq_some hfound).1).1]
    exact free.jobId _

/-- The letter that the names of the edges of a kind begin with. -/
def edgeInitial : PipelineEdgeKind → Char
  | .contains => 'p'
  | .dependsOn => 'j'

/-- The lowered name of a kind begins with the kind's letter. -/
theorem head?_lower_name (k : PipelineEdgeKind) :
    (replaceChar '_' '-' (lower k.name)).toList.head? = some (edgeInitial k) := by
  cases k <;> decide +kernel

/-- Names of edges of different kinds begin differently. -/
theorem kind_eq_of_edgeId_eq {kind kind' : PipelineEdgeKind} {source source' target target' : String}
    (h : edgeId s.digest kind.name source target = edgeId s.digest kind'.name source' target') :
    kind = kind' := by
  have hhead := congrArg (fun id : String => id.toList.head?) h
  simp only [edgeId, String.toList_append, List.append_assoc, List.head?_append, head?_lower_name,
    Option.some_or] at hhead
  cases kind <;> cases kind' <;> first | rfl | exact absurd hhead (by decide)

/-- Edges have different names, since no two say the same. -/
theorem nodup_edge_ids (free : s.digest.IsColonFree)
    (ids : ((ofTable s workflow).jobs.map JobNode.id).Nodup)
    (apart : s.digest.KeepsApart ((ofTable s workflow).edges.map PipelineEdge.nameText)) :
    ((ofTable s workflow).edges.map PipelineEdge.id).Nodup := by
  refine nodup_map_of_nodup_map (nodup_ends ids) ?_
  intro a ha b hb hid
  obtain ⟨hida, hplaina⟩ := id_of_mem_edges free ha
  obtain ⟨hidb, hplainb⟩ := id_of_mem_edges free hb
  rw [hida, hidb] at hid
  have hkind := kind_eq_of_edgeId_eq hid
  rw [hkind, edgeId, edgeId, String.append_right_inj] at hid
  have hshort : s.digest.short a.nameText = s.digest.short b.nameText := by
    unfold PipelineEdge.nameText
    rwa [hkind]
  have htext := apart _ (List.mem_map_of_mem ha) _ (List.mem_map_of_mem hb) hshort
  unfold PipelineEdge.nameText at htext
  rw [hkind] at htext
  obtain ⟨hsource, htarget⟩ := (edgeText_inj hplaina hplainb).mp htext
  unfold PipelineEdge.ends
  rw [hkind, hsource, htarget]

/-! ## What runs in a graph -/

theorem any_operation_iff {jobs : List JobNode} {kind : OperationKind} :
    (jobs.any fun j => j.operations.any (·.kind == kind)) = true ↔
      ∃ j ∈ jobs, ∃ o ∈ j.operations, o.kind = kind := by
  simp only [List.any_eq_true, beq_iff_eq]

theorem operations_of_mem_jobs (h : j ∈ (ofTable s workflow).jobs) :
    j.operations = DeployTrace.operations ((Context.ofTable workflow s.file).job j.jobName) := by
  obtain ⟨name, job, hjob, rfl⟩ := mem_jobs.mp h
  exact congrArg DeployTrace.operations (Context.job_eq_of_mem hjob).symm

end

end PipelineGraph

/-! ## The graph of a workflow -/

theorem PipelineGraph.exists_table {s : GraphSetting} {workflow : Tree} {graph : PipelineGraph}
    (h : PipelineGraph.ofWorkflow s workflow = .ok graph) :
    ∃ table, workflow = .table table ∧ graph = .ofTable s table := by
  cases workflow with
  | table entries => exact ⟨entries, rfl, (Except.ok.inj h).symm⟩
  | leaf a => cases h
  | list items => cases h

/-- The graph of a table pictures it, whatever its names are. -/
theorem PipelineGraph.ofTable_pictures (s : GraphSetting) (workflow : Table) :
    (PipelineGraph.ofTable s workflow).Pictures (.ofTable workflow s.file) where
  jobs := jobNames_ofTable
  dependencies := List.map_map
  operations _ hj := operations_of_mem_jobs hj
  joined := mem_ends
  job_count := rfl
  terraform := any_operation_iff
  helm := any_operation_iff

theorem PipelineGraph.ofTable_tellsApart {s : GraphSetting} {workflow : Table} (free : s.digest.IsColonFree)
    (apart : s.digest.KeepsApart (PipelineGraph.ofTable s workflow).nameTexts) :
    (PipelineGraph.ofTable s workflow).TellsApart := by
  have ids := nodup_job_ids (apart.of_subset (List.subset_append_left _ _))
  exact ⟨ids, nodup_ends ids, nodup_edge_ids free ids (apart.of_subset (List.subset_append_right _ _))⟩

theorem PipelineGraph.ofWorkflowWithin_of_admits {l : Limits} {s : GraphSetting} {workflow : Table}
    (admits : l.AdmitsAll (graphWritings s.file workflow)) :
    ofWorkflowWithin l s (.table workflow) = .ok (.ofTable s workflow) := by
  unfold ofWorkflowWithin
  simp only [workflowTable, bind, Except.bind, Except.mapError, Limits.writeAll_eq_ok_iff.mpr admits]

theorem PipelineGraph.ofWorkflowWithin_of_refused {l : Limits} {s : GraphSetting} {workflow : Table}
    {fault : WriteFault} (h : l.writeAll (graphWritings s.file workflow) = .error fault) :
    ofWorkflowWithin l s (.table workflow) = .error (.unwritten fault) := by
  unfold ofWorkflowWithin
  simp only [workflowTable, bind, Except.bind, Except.mapError, h]

/-- Every workflow that is a table has a graph, which pictures the workflow as detection reads it, unless
something is refused that the graph takes.  Its names tell everything in it apart if the digest does so. -/
theorem graph_pictures_workflow (l : Limits) (s : GraphSetting) (workflow : Table) :
    (l.AdmitsAll (graphWritings s.file workflow) →
      ∃ graph, PipelineGraph.ofWorkflowWithin l s (.table workflow) = .ok graph ∧
        graph.Pictures (.ofTable workflow s.file) ∧
        (s.digest.IsColonFree → s.digest.KeepsApart graph.nameTexts → graph.TellsApart)) ∧
    (¬ l.AdmitsAll (graphWritings s.file workflow) →
      ∃ fault, PipelineGraph.ofWorkflowWithin l s (.table workflow) = .error (.unwritten fault)) := by
  constructor
  · intro admits
    exact ⟨_, PipelineGraph.ofWorkflowWithin_of_admits admits, PipelineGraph.ofTable_pictures s workflow,
      PipelineGraph.ofTable_tellsApart⟩
  · intro refused
    obtain ⟨fault, hfault⟩ := Limits.exists_fault_of_not_admitsAll refused
    exact ⟨fault, PipelineGraph.ofWorkflowWithin_of_refused hfault⟩

/-! ### A graph of jobs in a tangle -/

/-- A job that runs one line and needs others. -/
def neededJob (line : String) (needs : List String) : Tree :=
  .table [(.text "script", .text line), (.text "needs", .ofTexts needs)]

/-- Jobs of which one needs itself, one declares a dependency twice, and one needs a job that does not
exist. -/
def tangledWorkflow : Table :=
  [(.text "plan", neededJob "terraform plan" ["plan"]), (.text "build", neededJob "make" ["plan", "plan"]),
    (.text "deploy", neededJob "helm upgrade w c" ["ghost", "build", "plan"])]

/-- A checksum of sixteen digits. -/
def checksum (text : String) : String :=
  String.ofList (hexDigits 16 (text.toList.foldl (fun sum c => (31 * sum + c.toNat) % 2 ^ 64) 7))

/-- A digest that is quickly evaluated, with short names of the length and the digits of those in use. -/
def checksumDigest : Digest := ⟨checksum, checksum⟩

theorem checksumDigest_isColonFree : checksumDigest.IsColonFree := by
  intro text hmem
  dsimp only [checksumDigest, checksum] at hmem
  rw [String.toList_ofList] at hmem
  exact (isNumeral_hexDigits 16 _).colon_notMem hmem

/-- What the graph of the tangle is made for. -/
def tangledSetting : GraphSetting := ⟨checksumDigest, "ci.yml", "local"⟩

/-- The graph of the tangle has the three jobs, an edge to each of them, and one for every dependency on a
job that exists. -/
theorem graph_pictures_tangle : ∃ graph,
    PipelineGraph.ofWorkflowWithin .standard tangledSetting (.table tangledWorkflow) = .ok graph ∧
      graph.Pictures (.ofTable tangledWorkflow "ci.yml") ∧ graph.TellsApart ∧
      graph.jobs.map JobNode.jobName = ["plan", "build", "deploy"] ∧ graph.edges.length = 7 := by
  have free : tangledSetting.digest.IsColonFree := checksumDigest_isColonFree
  have apart : tangledSetting.digest.KeepsApart
      (PipelineGraph.ofTable tangledSetting tangledWorkflow).nameTexts :=
    Digest.keepsApart_of_nodup (by decide +kernel)
  have admits : Limits.standard.AdmitsAll (graphWritings tangledSetting.file tangledWorkflow) := by
    decide +kernel
  obtain ⟨graph, hgraph, pictures, tellsApart⟩ :=
    (graph_pictures_workflow .standard tangledSetting tangledWorkflow).1 admits
  have hmade := hgraph
  rw [PipelineGraph.ofWorkflowWithin_of_admits admits] at hmade
  cases hmade
  exact ⟨_, hgraph, pictures, tellsApart free apart, by decide +kernel⟩

/-- Not every table has a graph: the name of a job may be refused. -/
theorem no_graph_of_half_name :
    ¬ ∀ (s : GraphSetting) (workflow : Table), ∃ graph,
      PipelineGraph.ofWorkflowWithin .standard s (.table workflow) = .ok graph := by
  intro graphs
  obtain ⟨graph, hgraph⟩ := graphs tangledSetting halfNamedWorkflow
  have refused : (PipelineGraph.ofWorkflowWithin .standard tangledSetting
      (.table halfNamedWorkflow)).toOption.isNone = true := by decide +kernel
  rw [hgraph] at refused
  cases refused

end DeployTrace
