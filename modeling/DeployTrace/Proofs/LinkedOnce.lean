/-
  DeployTrace/Proofs/LinkedOnce.lean --- an operation is linked to a node once, and every link has a name of
  its own.

  WHAT THIS FILE IS FOR.  Links are made job by job, operation by operation and node by node.  Nodes of one
  tool have different names, a job has one operation for a step at most, and the nodes of the two tools are
  linked to operations of different kinds.  So no two links join a job and a node for the same step.  None
  of this depends on which nodes are matched, how they are ordered, and how many of them are kept.

  THE NAMES.  The name of a link is a short digest of the job's name, the node's and the number of the step,
  joined by colons.  Names of nodes are whatever text the scan gave them, with colons or without.  The text
  is read from both ends: the name of a job has no colon, and neither has a number.
-/
import DeployTrace.Proofs.Linking
import DeployTrace.Proofs.PipelineGraphs

set_option autoImplicit false

namespace DeployTrace

open Text

/-! ## The text of a link -/

theorem repr_inj {i j : Nat} (h : Nat.repr i = Nat.repr j) : i = j := by
  have hdigits : Nat.toDigits 10 i = Nat.toDigits 10 j := by
    simpa only [Nat.toList_repr] using congrArg String.toList h
  simpa using congrArg (fun digits => Nat.ofDigitChars 10 digits 0) hdigits

/-- The target of a link shows the node and the step, whatever the node is called. -/
theorem linkTarget_inj {node node' : String} {i j : Nat} :
    linkTarget node i = linkTarget node' j ↔ node = node' ∧ i = j := by
  constructor
  · intro h
    have hchars : node.toList ++ ':' :: (Nat.repr i).toList = node'.toList ++ ':' :: (Nat.repr j).toList := by
      simpa [linkTarget] using congrArg String.toList h
    have hreverse : (Nat.repr i).toList.reverse ++ ':' :: node.toList.reverse =
        (Nat.repr j).toList.reverse ++ ':' :: node'.toList.reverse := by
      simpa using congrArg List.reverse hchars
    have plain : ∀ n, ':' ∉ (Nat.repr n).toList.reverse :=
      fun n hmem => (isNumeral_repr n).colon_notMem (List.mem_reverse.mp hmem)
    have hcut := congrArg (cutAt ':') hreverse
    rw [cutAt_append_cons (plain i), cutAt_append_cons (plain j)] at hcut
    obtain ⟨hindex, hnode⟩ := Prod.mk.inj (Option.some.inj hcut)
    have hrepr := String.toList_inj.mp (List.reverse_injective hindex)
    exact ⟨String.toList_inj.mp (List.reverse_injective hnode), repr_inj hrepr⟩
  · rintro ⟨rfl, rfl⟩
    rfl

/-! ## What a link joins -/

/-- The job, the node and the step of a link. -/
def OperatesOn.ends (e : OperatesOn) : String × String × Nat := (e.source, e.target, e.stepIndex)

theorem OperatesOn.ends_inj {e e' : OperatesOn} :
    e.ends = e'.ends ↔ e.source = e'.source ∧ e.target = e'.target ∧ e.stepIndex = e'.stepIndex := by
  unfold ends
  rw [Prod.mk.injEq, Prod.mk.injEq]

/-- The text from which the name of a link is made. -/
def OperatesOn.nameText (e : OperatesOn) : String :=
  edgeText operatesOnKind e.source (linkTarget e.target e.stepIndex)

/-- What is made of things that stand in a relation stands in one, if that holds of any two. -/
theorem pairwise_of_mapM {α β ε : Type} {make : α → Except ε β} {R : α → α → Prop} {S : β → β → Prop}
    {xs : List α} {ys : List β} (h : xs.mapM make = .ok ys) (related : xs.Pairwise R)
    (keeps : ∀ {a b c d}, R a b → make a = .ok c → make b = .ok d → S c d) : ys.Pairwise S := by
  induction xs generalizing ys with
  | nil =>
      cases h
      exact .nil
  | cons x rest ih =>
      rw [List.mapM_cons] at h
      obtain ⟨y, hy, h⟩ := exists_of_bind_eq_ok h
      obtain ⟨more, hmore, h⟩ := exists_of_bind_eq_ok h
      cases h
      obtain ⟨first, later⟩ := List.pairwise_cons.mp related
      refine List.pairwise_cons.mpr ⟨?_, ih hmore later⟩
      intro z hz
      obtain ⟨a, ha, hmade⟩ := (mapM_eq_ok_mem hmore).1 z hz
      exact keeps (first a ha) hy hmade

section

variable {digest : Digest} {scorer : Scorer} {options : LinkerOptions} {nodes : List InfraNode}
  {infra : Infrastructure} {job : JobNode} {o : Operation}

/-! ## One operation -/

/-- A match names its node and its operation. -/
theorem ends_of_matchOf {n : InfraNode} {m : LinkMatch} (h : matchOf scorer options job o n = .ok (some m)) :
    m.nodeId = n.id ∧ m.operation = o := by
  obtain ⟨score, -, h⟩ := exists_of_bind_eq_ok h
  cases score with
  | none => cases h
  | some score =>
      obtain ⟨threshold, -, h⟩ := exists_of_bind_eq_ok h
      split at h
      · cases h
      · cases h
        exact ⟨rfl, rfl⟩

theorem LinkerOptions.keepBest_sublist {α : Type} {xs kept : List α} (h : options.keepBest xs = .ok kept) :
    kept.Sublist xs := by
  unfold keepBest at h
  split at h <;> cases h
  · exact List.Sublist.refl _
  · exact keepFirst_sublist _ _
  · exact keepFirst_sublist _ _

/-- The matches of an operation are its own, each of another node. -/
theorem matchesOf_once (once : (nodes.map InfraNode.id).Nodup) {found : List LinkMatch}
    (h : matchesOf scorer options nodes job o = .ok found) :
    (found.map LinkMatch.nodeId).Nodup ∧ ∀ m ∈ found, m.operation = o := by
  obtain ⟨scored, hscored, h⟩ := exists_of_bind_eq_ok h
  have apart : (scored.filterMap id).Pairwise fun a b => a.nodeId ≠ b.nodeId := by
    refine List.pairwise_filterMap.mpr (pairwise_of_mapM hscored (List.pairwise_map.mp once) ?_)
    rintro n n' _ _ hne hn hn' a rfl b rfl
    rw [(ends_of_matchOf hn).1, (ends_of_matchOf hn').1]
    exact hne
  have own : ∀ m ∈ scored.filterMap id, m.operation = o := by
    intro m hm
    obtain ⟨_, hmem, rfl⟩ := List.mem_filterMap.mp hm
    obtain ⟨n, -, hn⟩ := (mapM_eq_ok_mem hscored).1 _ hmem
    exact (ends_of_matchOf hn).2
  have kept := LinkerOptions.keepBest_sublist h
  have sorted : (sortMatches (scored.filterMap id)).Perm (scored.filterMap id) := sortBy_perm _ _
  constructor
  · exact ((sorted.map _).nodup_iff.mpr (List.pairwise_map.mpr apart)).sublist (kept.map _)
  · exact fun m hm => own m (sorted.subset (kept.subset hm))

/-! ## One job -/

/-- Links for the steps of some operations, with no two that join the same. -/
structure LinksOnce (operations : List Operation) (edges : List OperatesOn) : Prop where
  once : (edges.map OperatesOn.ends).Nodup
  step : ∀ e ∈ edges, ∃ o ∈ operations, e.stepIndex = o.stepIndex

/-- Operations of different steps have links that differ by the step, and those of one operation differ by
the node. -/
theorem linkOperations_once {operations : List Operation} (steps : (operations.map Operation.stepIndex).Nodup)
    (once : (nodes.map InfraNode.id).Nodup) {links : Links}
    (h : linkOperations digest scorer options nodes job operations = .ok links) :
    LinksOnce operations links.edges := by
  obtain ⟨found, hfound, h⟩ := exists_of_bind_eq_ok h
  cases h
  have own : ∀ ms ∈ found, ∃ o ∈ operations, (ms.map LinkMatch.nodeId).Nodup ∧ ∀ m ∈ ms, m.operation = o := by
    intro ms hms
    obtain ⟨o, ho, hmatches⟩ := (mapM_eq_ok_mem hfound).1 ms hms
    exact ⟨o, ho, matchesOf_once once hmatches⟩
  have apart : found.flatten.Pairwise fun a b =>
      (LinkMatch.edge digest job a).ends ≠ (LinkMatch.edge digest job b).ends := by
    refine List.pairwise_flatten.mpr ⟨?_, pairwise_of_mapM hfound (List.pairwise_map.mp steps) ?_⟩
    · intro ms hms
      obtain ⟨o, -, hnodes, -⟩ := own ms hms
      exact (List.pairwise_map.mp hnodes).imp fun hne heq => hne (OperatesOn.ends_inj.mp heq).2.1
    · intro o o' ms ms' hne hms hms' a ha b hb heq
      have hstep : a.operation.stepIndex = b.operation.stepIndex := (OperatesOn.ends_inj.mp heq).2.2
      rw [(matchesOf_once once hms).2 a ha, (matchesOf_once once hms').2 b hb] at hstep
      exact hne hstep
  constructor
  · rw [List.map_map]
    exact List.pairwise_map.mpr apart
  · intro e he
    obtain ⟨m, hm, rfl⟩ := List.mem_map.mp he
    obtain ⟨ms, hms, hm⟩ := List.mem_flatten.mp hm
    obtain ⟨o, ho, -, hown⟩ := own ms hms
    exact ⟨o, ho, congrArg Operation.stepIndex (hown m hm)⟩

/-- Links to the nodes of different tools are made for operations of different kinds, and so for different
steps. -/
theorem linkJob_once (steps : (job.operations.map Operation.stepIndex).Nodup)
    (terraformOnce : (infra.terraform.map InfraNode.id).Nodup)
    (helmOnce : (infra.helm.map InfraNode.id).Nodup) {links : Links}
    (h : linkJob digest options infra job = .ok links) : LinksOnce job.operations links.edges := by
  obtain ⟨terraform, hterraform, h⟩ := exists_of_bind_eq_ok h
  obtain ⟨helm, hhelm, h⟩ := exists_of_bind_eq_ok h
  cases h
  have ofKind : ∀ kind, (operationsOf kind job.operations).Sublist job.operations :=
    fun kind => List.filter_sublist
  have ofTool : ∀ {nodes : List InfraNode} (p : InfraNode → Bool), (nodes.map InfraNode.id).Nodup →
      ((nodes.filter p).map InfraNode.id).Nodup :=
    fun p once => once.sublist (List.filter_sublist.map _)
  have left : LinksOnce (operationsOf .terraform job.operations) terraform.edges :=
    linkOperations_once (steps.sublist ((ofKind _).map _)) (ofTool _ terraformOnce) hterraform
  have right : LinksOnce (operationsOf .helm job.operations) helm.edges :=
    linkOperations_once (steps.sublist ((ofKind _).map _)) (ofTool _ helmOnce) hhelm
  constructor
  · rw [List.map_append]
    refine left.once.append right.once ?_
    intro ends hends hends'
    obtain ⟨e, he, rfl⟩ := List.mem_map.mp hends
    obtain ⟨e', he', heq⟩ := List.mem_map.mp hends'
    obtain ⟨o, ho, hstep⟩ := left.step e he
    obtain ⟨o', ho', hstep'⟩ := right.step e' he'
    have hindex : o'.stepIndex = o.stepIndex :=
      hstep'.symm.trans ((OperatesOn.ends_inj.mp heq).2.2.trans hstep)
    obtain ⟨hmem, hkind⟩ := List.mem_filter.mp ho
    obtain ⟨hmem', hkind'⟩ := List.mem_filter.mp ho'
    obtain rfl : o' = o := List.inj_on_of_nodup_map steps hmem' hmem hindex
    exact absurd ((beq_iff_eq.mp hkind).symm.trans (beq_iff_eq.mp hkind')) (by decide)
  · intro e he
    have step : ∃ kind, ∃ o ∈ operationsOf kind job.operations, e.stepIndex = o.stepIndex :=
      (List.mem_append.mp he).elim (fun h => ⟨_, left.step e h⟩) fun h => ⟨_, right.step e h⟩
    obtain ⟨kind, o, ho, hstep⟩ := step
    exact ⟨o, (ofKind kind).subset ho, hstep⟩

/-! ## All jobs -/

/-- No two links of a run join a job and a node for the same step. -/
theorem linkJobs_once {jobs : List JobNode} {edges : List OperatesOn} (ids : (jobs.map JobNode.id).Nodup)
    (steps : ∀ job ∈ jobs, (job.operations.map Operation.stepIndex).Nodup)
    (terraformOnce : (infra.terraform.map InfraNode.id).Nodup)
    (helmOnce : (infra.helm.map InfraNode.id).Nodup)
    (h : linkJobs digest options infra jobs = .ok edges) : (edges.map OperatesOn.ends).Nodup := by
  obtain ⟨found, hfound, h⟩ := exists_of_bind_eq_ok h
  cases h
  rw [List.map_flatMap]
  refine List.pairwise_flatMap.mpr ⟨?_, pairwise_of_mapM hfound (List.pairwise_map.mp ids) ?_⟩
  · intro links hlinks
    obtain ⟨job, hjob, hmade⟩ := (mapM_eq_ok_mem hfound).1 links hlinks
    exact (linkJob_once (steps job hjob) terraformOnce helmOnce hmade).once
  · intro job job' links links' hne hlinks hlinks' ends hends ends' hends' heq
    obtain ⟨e, he, rfl⟩ := List.mem_map.mp hends
    obtain ⟨e', he', rfl⟩ := List.mem_map.mp hends'
    obtain ⟨m, rfl⟩ := edge_of_linkJob hlinks he
    obtain ⟨m', rfl⟩ := edge_of_linkJob hlinks' he'
    exact hne (OperatesOn.ends_inj.mp heq).1

/-- Every link goes by a name made from what it joins. -/
theorem id_of_linkJobs {jobs : List JobNode} {edges : List OperatesOn}
    (h : linkJobs digest options infra jobs = .ok edges) {e : OperatesOn} (he : e ∈ edges) :
    e.id = edgeId digest operatesOnKind e.source (linkTarget e.target e.stepIndex) ∧
      ∃ job ∈ jobs, e.source = job.id := by
  obtain ⟨job, hjob, links, hlinks, he⟩ := (mem_linkJobs h).mp he
  obtain ⟨m, rfl⟩ := edge_of_linkJob hlinks he
  exact ⟨rfl, job, hjob, rfl⟩

/-! ## The links of a workflow -/

/-- The node of a job has one operation for a step at most. -/
theorem JobNode.nodup_steps {s : GraphSetting} {name : String} {job : Table} :
    ((JobNode.ofJob s name job).operations.map Operation.stepIndex).Nodup := by
  have hindex : ∀ index step o, operation? (.table job) index step = some o → o.stepIndex = index :=
    fun _ _ _ hread => (operation?_eq_some hread).1
  have order : (DeployTrace.operations (.table job)).Pairwise fun a b => a.stepIndex < b.stepIndex :=
    readSteps_order hindex (.table job)
  exact List.pairwise_map.mpr (order.imp Nat.ne_of_lt)

/-- The links of all jobs of a workflow have different names, whatever the nodes around it are called as
long as those of each tool are called differently, and whatever the options are. -/
theorem operatesOn_ids_distinct {workflow : Tree} {file scanId : String} {graph : PipelineGraph}
    {edges : List OperatesOn} (free : digest.IsColonFree)
    (hgraph : PipelineGraph.ofWorkflow ⟨digest, file, scanId⟩ workflow = .ok graph)
    (terraformOnce : (infra.terraform.map InfraNode.id).Nodup)
    (helmOnce : (infra.helm.map InfraNode.id).Nodup)
    (hedges : linkJobs digest options infra graph.jobs = .ok edges)
    (apart : digest.KeepsApart (graph.jobs.map JobNode.nameText ++ edges.map OperatesOn.nameText)) :
    (edges.map OperatesOn.id).Nodup := by
  obtain ⟨table, -, rfl⟩ := PipelineGraph.exists_table hgraph
  have ids := PipelineGraph.nodup_job_ids (apart.of_subset (List.subset_append_left _ _))
  have steps : ∀ job ∈ (PipelineGraph.ofTable ⟨digest, file, scanId⟩ table).jobs,
      (job.operations.map Operation.stepIndex).Nodup := by
    intro job hjob
    obtain ⟨name, job, -, rfl⟩ := PipelineGraph.mem_jobs.mp hjob
    exact JobNode.nodup_steps
  have plain : ∀ e ∈ edges, ':' ∉ e.source.toList := by
    intro e he
    obtain ⟨-, job, hjob, hsource⟩ := id_of_linkJobs hedges he
    rw [hsource, (PipelineGraph.id_of_mem_jobs hjob).1]
    exact free.jobId _
  have linksApart := apart.of_subset (List.subset_append_right _ (edges.map OperatesOn.nameText))
  refine nodup_map_of_nodup_map (linkJobs_once ids steps terraformOnce helmOnce hedges) ?_
  intro a ha b hb hid
  rw [(id_of_linkJobs hedges ha).1, (id_of_linkJobs hedges hb).1, edgeId, edgeId,
    String.append_right_inj] at hid
  have htext := linksApart _ (List.mem_map_of_mem ha) _ (List.mem_map_of_mem hb) hid
  obtain ⟨hsource, htarget⟩ := (edgeText_inj (plain a ha) (plain b hb)).mp htext
  obtain ⟨hnode, hstep⟩ := linkTarget_inj.mp htarget
  exact OperatesOn.ends_inj.mpr ⟨hsource, hnode, hstep⟩

end

/-! ### Nodes with colons in their names -/

/-- Nodes that a name is given to besides. -/
def alsoCalled (name : String) (n : InfraNode) : List InfraNode := [n, { n with id := name }]

/-- Two nodes of one output and two of one release, with names that end like the names of links. -/
def colonInfra : Infrastructure where
  terraform := alsoCalled "output-x:0" (outputNode "x")
  helm := alsoCalled "release-w:1" (releaseNode "w")

/-- Two jobs of two steps each. -/
def twoStages : Table :=
  ["stage", "prod"].map fun name =>
    (.text name, .table [(.text "script", .list [.text "terraform output x", .text "helm upgrade w c"])])

/-- The graph of the two jobs. -/
def stagesGraph : PipelineGraph := .ofTable ⟨checksumDigest, "ci.yml", "scan"⟩ twoStages

/-- The links of the two jobs. -/
def stagesEdges : List OperatesOn :=
  (linkJobs checksumDigest namesAside colonInfra stagesGraph.jobs).toOption.getD []

theorem linkJobs_stages : linkJobs checksumDigest namesAside colonInfra stagesGraph.jobs = .ok stagesEdges := by
  have linked : (linkJobs checksumDigest namesAside colonInfra stagesGraph.jobs).toOption.isSome = true := by
    decide +kernel
  unfold stagesEdges
  revert linked
  cases linkJobs checksumDigest namesAside colonInfra stagesGraph.jobs with
  | error fault => exact fun linked => Bool.noConfusion linked
  | ok edges => exact fun _ => rfl

/-- Each of the two jobs has four links, and all of them have different names. -/
theorem operatesOn_ids_distinct_stages :
    stagesEdges.map (fun e => (e.target, e.stepIndex)) =
      [("output-x", 0), ("output-x:0", 0), ("release-w", 1), ("release-w:1", 1),
        ("output-x", 0), ("output-x:0", 0), ("release-w", 1), ("release-w:1", 1)] ∧
      (stagesEdges.map OperatesOn.id).Nodup := by
  have apart : checksumDigest.KeepsApart
      (stagesGraph.jobs.map JobNode.nameText ++ stagesEdges.map OperatesOn.nameText) :=
    Digest.keepsApart_of_nodup (by decide +kernel)
  have hgraph : PipelineGraph.ofWorkflow ⟨checksumDigest, "ci.yml", "scan"⟩ (.table twoStages) =
      .ok stagesGraph := rfl
  exact ⟨by decide +kernel, operatesOn_ids_distinct checksumDigest_isColonFree hgraph (by decide) (by decide)
    linkJobs_stages apart⟩

end DeployTrace
