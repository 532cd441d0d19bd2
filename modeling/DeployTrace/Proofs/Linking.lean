/-
  DeployTrace/Proofs/Linking.lean --- linking keeps the best nodes of every operation.

  WHAT THIS FILE IS FOR.  For an operation, the nodes of its tool are scored, those below the least
  confidence are left out, the others are sorted, and the list is cut.  What is kept is described here
  without sorting and cutting (`MatchSearch.IsBest`): nodes that fit, the surer ones first, those as sure
  in the order in which they were given, and no node that fits is missing unless there is no room for it.
  Every match that is kept has one edge that says the same (`OperatesOn.Shows`).

  NO NUMBER AS THE LEAST CONFIDENCE.  Nothing is below it, and nothing reaches it.  Linking leaves out what
  is below, so that every scored node counts as fitting then, whatever its score.
-/
import DeployTrace.Link.Edge
import DeployTrace.Proofs.Candidates
import DeployTrace.Proofs.LinkScores
import DeployTrace.Proofs.Memory
import Mathlib.Data.List.Forall2

set_option autoImplicit false

namespace DeployTrace

/-! ## The limit -/

/-- A limit that is an integer, or a truth value that counts as one, is a cut at it. -/
theorem LinkerOptions.keepBest_eq {α : Type} {options : LinkerOptions} {limit : Int}
    (h : options.maxEdges.number? = some (.int limit)) (xs : List α) :
    options.keepBest xs = .ok (keepFirst limit xs) := by
  unfold keepBest
  cases hmax : options.maxEdges with
  | leaf s =>
      rw [hmax] at h
      cases s with
      | null => cases h
      | bool b =>
          cases h
          rfl
      | number n =>
          cases h
          rfl
      | text t => cases h
  | list items =>
      rw [hmax] at h
      cases h
  | table entries =>
      rw [hmax] at h
      cases h

/-! ## Scored nodes -/

/-- A node of a list, with its place in it and its score for an operation. -/
structure ScoredNode where
  place : Nat
  node : InfraNode
  score : LinkScore

namespace ScoredNode

/-- The match of an operation with a scored node. -/
def toMatch (o : Operation) (c : ScoredNode) : LinkMatch where
  nodeId := c.node.id
  confidence := .int c.score.confidence
  reason := c.score.reason
  operation := o

/-- The order of what is kept: the surer one first, and of two as sure the one that was given first. -/
def Before (a b : ScoredNode) : Prop :=
  b.score.confidence < a.score.confidence ∨
    (a.score.confidence = b.score.confidence ∧ a.place < b.place)

/-- Whether one is surer than the other. -/
def surer (a b : ScoredNode) : Bool := decide (b.score.confidence < a.score.confidence)

/-- Matches are sorted by the scores of their nodes. -/
theorem lt_toMatch (o : Operation) (a b : ScoredNode) :
    (toMatch o b).confidence.lt (toMatch o a).confidence = surer a b := by
  have hvalues := Number.lt_eq_decide (Number.isFinite_int b.score.confidence)
    (Number.isFinite_int a.score.confidence)
  refine hvalues.trans (decide_eq_decide.mpr ?_)
  exact Rat.intCast_lt_intCast

theorem sortMatches_map (o : Operation) (found : List ScoredNode) :
    sortMatches (found.map (toMatch o)) = (sortBy surer found).map (toMatch o) := by
  have hprecedes : surer = fun a b => (toMatch o b).confidence.lt (toMatch o a).confidence := by
    funext a b
    exact (lt_toMatch o a b).symm
  rw [hprecedes]
  exact (map_sortBy (toMatch o) (fun a b => b.confidence.lt a.confidence) found).symm

end ScoredNode

/-! ## What is to be kept -/

/-- Nodes that are looked through for a job, with a way to score them, the kinds of nodes it is for, the
least confidence and the greatest number of matches. -/
structure MatchSearch where
  scorer : Scorer
  family : NodeKind → Bool
  options : LinkerOptions
  least : Number
  limit : Int
  nodes : List InfraNode
  job : JobNode

/-- An edge that goes from a job to the node of a match and says of the operation what the match says. -/
structure OperatesOn.Shows (job : JobNode) (e : OperatesOn) (m : LinkMatch) : Prop where
  source : e.source = job.id
  target : e.target = m.nodeId
  confidence : e.confidence = m.confidence
  reason : e.reason = m.reason
  kind : e.kind = m.operation.kind
  stepIndex : e.stepIndex = m.operation.stepIndex

namespace MatchSearch

variable (q : MatchSearch)

/-- A node fits an operation when it is of the right kind and is scored not below the least confidence. -/
structure Fits (o : Operation) (c : ScoredNode) : Prop where
  placed : q.nodes[c.place]? = some c.node
  family : q.family c.node.kind = true
  scored : q.scorer q.job o c.node q.options = .ok (some c.score)
  reaches : (Number.int c.score.confidence).lt q.least = false

/-- The best nodes for an operation. -/
structure IsBest (o : Operation) (chosen : List ScoredNode) : Prop where
  fits : ∀ c ∈ chosen, q.Fits o c
  within_limit : (chosen.length : Int) ≤ q.limit
  ranked : chosen.Pairwise ScoredNode.Before
  /-- a node that fits is left out only when the others fill the limit and are at least as sure -/
  complete : ∀ c, q.Fits o c → c ∈ chosen ∨
    ((chosen.length : Int) = q.limit ∧ ∀ b ∈ chosen, c.score.confidence ≤ b.score.confidence)

/-- Links that hold the best nodes for every operation of a kind. -/
structure Holds (kind : OperationKind) (links : Links) : Prop where
  best : ∃ chosen : Operation → List ScoredNode,
    (∀ o ∈ operationsOf kind q.job.operations, q.IsBest o (chosen o)) ∧
    links.links = (operationsOf kind q.job.operations).flatMap fun o => (chosen o).map (ScoredNode.toMatch o)
  valid : ∀ m ∈ links.links, isValidMatch m.confidence m.reason.name = true
  reaching : ∀ m ∈ links.links, m.confidence.lt q.least = false ∧
    (q.least.isNan = false → q.least.le m.confidence = true)
  aligned : List.Forall₂ (OperatesOn.Shows q.job) links.edges links.links
  family : ∀ e ∈ links.edges, ∃ n ∈ q.nodes, q.family n.kind = true ∧ e.target = n.id

/-! ## What is kept -/

section

variable (o : Operation)

/-- A node in its place with its score, if it is scored not below the least confidence. -/
def scoredAt (entry : InfraNode × Nat) : Option ScoredNode :=
  match q.scorer q.job o entry.1 q.options with
  | .ok (some score) =>
    if (Number.int score.confidence).lt q.least then none else some ⟨entry.2, entry.1, score⟩
  | _ => none

/-- The nodes that fit an operation, as they were given. -/
def fitting : List ScoredNode :=
  (q.nodes.zipIdx.filter fun entry => q.family entry.1.kind).filterMap (q.scoredAt o)

/-- The best of them. -/
def best : List ScoredNode := keepFirst q.limit (sortBy ScoredNode.surer (q.fitting o))

end

variable {q} {o : Operation} {c : ScoredNode}

theorem scoredAt_eq_some {entry : InfraNode × Nat} :
    q.scoredAt o entry = some c ↔ entry = (c.node, c.place) ∧
      q.scorer q.job o c.node q.options = .ok (some c.score) ∧
      (Number.int c.score.confidence).lt q.least = false := by
  obtain ⟨n, place⟩ := entry
  constructor
  · intro h
    unfold scoredAt at h
    split at h
    · rename_i score hscore
      split at h
      · cases h
      · rename_i hleast
        cases h
        exact ⟨rfl, hscore, by simpa using hleast⟩
    · cases h
  · rintro ⟨hentry, hscore, hleast⟩
    cases hentry
    unfold scoredAt
    simp only [hscore, hleast]
    rfl

theorem mem_fitting : c ∈ q.fitting o ↔ q.Fits o c := by
  unfold fitting
  rw [List.mem_filterMap]
  constructor
  · rintro ⟨entry, hentry, hscored⟩
    obtain ⟨rfl, hscore, hleast⟩ := scoredAt_eq_some.mp hscored
    obtain ⟨hplace, hfamily⟩ := List.mem_filter.mp hentry
    exact ⟨List.mk_mem_zipIdx_iff_getElem?.mp hplace, hfamily, hscore, hleast⟩
  · intro h
    refine ⟨(c.node, c.place), List.mem_filter.mpr ⟨?_, h.family⟩, ?_⟩
    · exact List.mk_mem_zipIdx_iff_getElem?.mpr h.placed
    · exact scoredAt_eq_some.mpr ⟨rfl, h.scored, h.reaches⟩

/-- The nodes that fit stand in the order of their places. -/
theorem fitting_order : (q.fitting o).Pairwise fun a b => a.place < b.place := by
  have places : (q.nodes.zipIdx.map Prod.snd).Pairwise (· < ·) := by
    rw [List.zipIdx_map_snd]
    exact List.pairwise_lt_range'
  rw [List.pairwise_map] at places
  refine List.pairwise_filterMap.mpr ((places.sublist List.filter_sublist).imp ?_)
  intro entry later hlt a ha b hb
  obtain ⟨rfl, -, -⟩ := scoredAt_eq_some.mp ha
  obtain ⟨rfl, -, -⟩ := scoredAt_eq_some.mp hb
  exact hlt

/-- Sorted, they are ranked. -/
theorem sorted_ranked : (sortBy ScoredNode.surer (q.fitting o)).Pairwise ScoredNode.Before := by
  have sorted := sortBy_pairwise (weakOrder_int.flip.comap fun c : ScoredNode => c.score.confidence)
    (fitting_order (q := q) (o := o))
  refine List.Pairwise.imp ?_ sorted
  intro a b h
  unfold ScoredNode.Before
  rcases h with hlt | ⟨hnot, hplace⟩
  · exact Or.inl (of_decide_eq_true hlt)
  · have hle := of_decide_eq_false hnot
    omega

/-- What is kept are the best nodes. -/
theorem isBest_best (hlimit : 0 ≤ q.limit) : q.IsBest o (q.best o) := by
  have hcut : q.best o = (sortBy ScoredNode.surer (q.fitting o)).take q.limit.toNat :=
    keepFirst_of_nonneg hlimit _
  rw [hcut]
  exact {
    fits := by
      intro c hc
      exact mem_fitting.mp (mem_sortBy.mp (List.mem_of_mem_take hc))
    within_limit := by
      have hlength := List.length_take_le q.limit.toNat (sortBy ScoredNode.surer (q.fitting o))
      omega
    ranked := sorted_ranked.sublist (List.take_sublist _ _)
    complete := by
      intro c hc
      have hsorted : c ∈ sortBy ScoredNode.surer (q.fitting o) := mem_sortBy.mpr (mem_fitting.mpr hc)
      rcases mem_take_or_full q.limit.toNat sorted_ranked hsorted with hkept | ⟨hfull, hbefore⟩
      · exact Or.inl hkept
      · refine Or.inr ⟨by omega, ?_⟩
        intro b hb
        have hb := hbefore b hb
        unfold ScoredNode.Before at hb
        omega }

/-! ## Linking keeps it -/

/-- A search is proper when its bounds are those of its options and all its nodes can be scored. -/
structure Proper (q : MatchSearch) : Prop where
  least : q.options.minConfidence.number? = some q.least
  limit : q.options.maxEdges.number? = some (.int q.limit)
  nonneg : 0 ≤ q.limit
  scores : ∀ o, ∀ n ∈ q.nodes, ∃ best, q.scorer q.job o n q.options = .ok best ∧ OnScale best

theorem matchOf_eq (proper : q.Proper) {n : InfraNode} (hn : n ∈ q.nodes) (place : Nat) :
    matchOf q.scorer q.options q.job o n =
      .ok ((q.scoredAt o (n, place)).map (ScoredNode.toMatch o)) := by
  obtain ⟨best, hbest, -⟩ := proper.scores o n hn
  have hleast : q.options.threshold = .ok q.least := by
    unfold LinkerOptions.threshold
    rw [proper.least]
  unfold matchOf scoredAt
  simp only [hbest, hleast]
  cases best with
  | none => rfl
  | some score =>
      cases hbelow : (Number.int score.confidence).lt q.least with
      | true =>
          simp only [bind, Except.bind, hbelow]
          rfl
      | false =>
          simp only [bind, Except.bind, hbelow]
          rfl

/-- The nodes of the right kinds, each looked at in turn. -/
theorem mapM_matchOf (proper : q.Proper) (o : Operation) :
    (q.nodes.filter fun n => q.family n.kind).mapM (matchOf q.scorer q.options q.job o) =
      .ok ((q.nodes.zipIdx.filter fun entry => q.family entry.1.kind).map fun entry =>
        (q.scoredAt o entry).map (ScoredNode.toMatch o)) := by
  have hnodes : (q.nodes.filter fun n => q.family n.kind) =
      (q.nodes.zipIdx.filter fun entry => q.family entry.1.kind).map Prod.fst := by
    have hall : q.nodes = q.nodes.zipIdx.map Prod.fst := (List.zipIdx_map_fst 0 q.nodes).symm
    conv_lhs => rw [hall, List.filter_map]
    rfl
  rw [hnodes, List.mapM_map]
  refine mapM_eq_ok_of_forall ?_
  rintro ⟨n, place⟩ hentry
  have hn : n ∈ q.nodes := List.fst_mem_of_mem_zipIdx (List.mem_of_mem_filter hentry)
  exact matchOf_eq proper hn place

/-- The matches kept for an operation are those of its best nodes. -/
theorem matchesOf_eq (proper : q.Proper) (o : Operation) :
    matchesOf q.scorer q.options (q.nodes.filter fun n => q.family n.kind) q.job o =
      .ok ((q.best o).map (ScoredNode.toMatch o)) := by
  have hmatches : ((q.nodes.zipIdx.filter fun entry => q.family entry.1.kind).map fun entry =>
      (q.scoredAt o entry).map (ScoredNode.toMatch o)).filterMap id =
        (q.fitting o).map (ScoredNode.toMatch o) := by
    unfold fitting
    rw [List.filterMap_map, List.map_filterMap]
    rfl
  unfold matchesOf
  rw [mapM_matchOf proper o]
  show q.options.keepBest (sortMatches _) = _
  rw [hmatches, ScoredNode.sortMatches_map, LinkerOptions.keepBest_eq proper.limit, ← map_keepFirst]
  rfl

/-! ## Links -/

theorem isSome_ofName? (reason : MatchReason) : (MatchReason.ofName? reason.name).isSome = true := by
  cases reason <;> rfl

/-- The matches for the best nodes of all operations of a kind. -/
def kept (q : MatchSearch) (kind : OperationKind) : List LinkMatch :=
  (operationsOf kind q.job.operations).flatMap fun o => (q.best o).map (ScoredNode.toMatch o)

theorem exists_fits_of_mem_kept (proper : q.Proper) {kind : OperationKind} {m : LinkMatch}
    (hm : m ∈ q.kept kind) : ∃ o c, q.Fits o c ∧ m = c.toMatch o := by
  obtain ⟨o, -, hm⟩ := List.mem_flatMap.mp hm
  obtain ⟨c, hc, rfl⟩ := List.mem_map.mp hm
  exact ⟨o, c, (isBest_best proper.nonneg).fits c hc, rfl⟩

/-- A match of a node that fits is on the scale and has a reason. -/
theorem Fits.valid_toMatch (proper : q.Proper) (h : q.Fits o c) :
    isValidMatch (c.toMatch o).confidence (c.toMatch o).reason.name = true := by
  have hn : c.node ∈ q.nodes := List.mem_of_getElem? h.placed
  obtain ⟨best, hbest, hscale⟩ := proper.scores o c.node hn
  obtain rfl : best = some c.score := Except.ok.inj (hbest.symm.trans h.scored)
  obtain ⟨hlow, hhigh⟩ := hscale c.score rfl
  exact Bool.and_eq_true_iff.mpr ⟨inScoreRange_int hlow hhigh, isSome_ofName? c.score.reason⟩

theorem shows_edge (digest : Digest) (job : JobNode) (o : Operation) (c : ScoredNode) :
    OperatesOn.Shows job (LinkMatch.edge digest job (c.toMatch o)) (c.toMatch o) :=
  ⟨rfl, rfl, rfl, rfl, rfl, rfl⟩

/-- Linking succeeds, and its links hold the best nodes. -/
theorem Proper.linkOperations_holds (proper : q.Proper) (digest : Digest) (kind : OperationKind) :
    ∃ links, linkOperations digest q.scorer q.options (q.nodes.filter fun n => q.family n.kind) q.job
      (operationsOf kind q.job.operations) = .ok links ∧ q.Holds kind links := by
  have hfound : (operationsOf kind q.job.operations).mapM
      (matchesOf q.scorer q.options (q.nodes.filter fun n => q.family n.kind) q.job) =
        .ok ((operationsOf kind q.job.operations).map fun o => (q.best o).map (ScoredNode.toMatch o)) :=
    mapM_eq_ok_of_forall fun o _ => matchesOf_eq proper o
  refine ⟨⟨(q.kept kind).map (LinkMatch.edge digest q.job), q.kept kind⟩, ?_, ?_⟩
  · unfold linkOperations
    rw [hfound]
    rfl
  · exact {
      best := ⟨q.best, fun o _ => isBest_best proper.nonneg, rfl⟩
      valid := by
        intro m hm
        obtain ⟨o, c, hfits, rfl⟩ := exists_fits_of_mem_kept proper hm
        exact hfits.valid_toMatch proper
      reaching := by
        intro m hm
        obtain ⟨o, c, hfits, rfl⟩ := exists_fits_of_mem_kept proper hm
        exact ⟨hfits.reaches, fun hnan => Number.le_int_of_not_lt hnan hfits.reaches⟩
      aligned := by
        refine List.forall₂_map_left_iff.mpr (List.forall₂_same.mpr ?_)
        intro m hm
        obtain ⟨o, c, -, rfl⟩ := exists_fits_of_mem_kept proper hm
        exact shows_edge digest q.job o c
      family := by
        intro e he
        obtain ⟨m, hm, rfl⟩ := List.mem_map.mp he
        obtain ⟨o, c, hfits, rfl⟩ := exists_fits_of_mem_kept proper hm
        exact ⟨c.node, List.mem_of_getElem? hfits.placed, hfits.family, rfl⟩ }

end MatchSearch

/-- The search for nodes that Terraform acts on. -/
def terraformSearch (options : LinkerOptions) (least : Number) (limit : Int) (nodes : List InfraNode)
    (job : JobNode) : MatchSearch where
  scorer := terraformScore
  family := NodeKind.isTerraform
  options := options
  least := least
  limit := limit
  nodes := nodes
  job := job

/-- The search for nodes that Helm acts on. -/
def helmSearch (options : LinkerOptions) (least : Number) (limit : Int) (nodes : List InfraNode)
    (job : JobNode) : MatchSearch where
  scorer := helmScore
  family := NodeKind.isHelm
  options := options
  least := least
  limit := limit
  nodes := nodes
  job := job

/-- For every operation of a job, linking to nodes with texts as facts keeps the best nodes of the tool, as
many as allowed, and nothing else. -/
theorem linking_keeps_best {options : LinkerOptions} {least : Number} {limit : Int} {nodes : List InfraNode}
    (facts : ∀ n ∈ nodes, n.HasTextFacts) (hleast : options.minConfidence.number? = some least)
    (hlimit : options.maxEdges.number? = some (.int limit)) (nonneg : 0 ≤ limit) (digest : Digest)
    (job : JobNode) :
    (∃ links, linkTerraform digest options nodes job = .ok links ∧
      (terraformSearch options least limit nodes job).Holds .terraform links) ∧
    ∃ links, linkHelm digest options nodes job = .ok links ∧
      (helmSearch options least limit nodes job).Holds .helm links := by
  have terraform : (terraformSearch options least limit nodes job).Proper :=
    ⟨hleast, hlimit, nonneg, fun o n hn => terraformScore_onScale (facts n hn) job o options⟩
  have helm : (helmSearch options least limit nodes job).Proper :=
    ⟨hleast, hlimit, nonneg, fun o n hn => helmScore_onScale (facts n hn) job o options⟩
  exact ⟨terraform.linkOperations_holds digest .terraform, helm.linkOperations_holds digest .helm⟩

/-! ### A job with two operations -/

/-- An output of the network. -/
def networkOutput (name : String) : InfraNode where
  id := name
  kind := .terraformOutput
  name := name
  filePath := "network/outputs.tf"
  facts := [(.text "modulePath", .text "network")]

/-- A release of a chart. -/
def webRelease : InfraNode where
  id := "web"
  kind := .helmRelease
  name := "web"
  filePath := "charts/web/Chart.yaml"
  facts := [(.text "releaseName", .text "web")]

/-- A job that changes the network and then upgrades a release. -/
def networkJob : JobNode where
  id := "job"
  name := "Deploy"
  filePath := "ci.yml"
  scanId := "scan"
  pipelineId := "pipeline"
  jobName := "deploy"
  operations := [
    { kind := .terraform, command := "apply", stepIndex := 0, text := "terraform apply",
      workingDir := some "network" },
    { kind := .helm, command := "upgrade", stepIndex := 1, text := "helm upgrade web ./web" }]

/-- The edges of an answer: the node, the confidence and the step. -/
def answerEdges (answer : Except LinkFault Links) : List (String × Number × Nat) :=
  (answer.toOption.map Links.edges).getD [] |>.map fun e => (e.target, e.confidence, e.stepIndex)

/-- Of two outputs that fit as well, the one that was given first is kept where one is allowed. -/
theorem linking_keeps_best_first :
    (∀ n ∈ [networkOutput "vpc", webRelease, networkOutput "zone"], n.HasTextFacts) ∧
    ((∃ links, linkTerraform plainDigest { maxEdges := .int 1 }
        [networkOutput "vpc", webRelease, networkOutput "zone"] networkJob = .ok links ∧
      (terraformSearch { maxEdges := .int 1 } (.int 50) 1
        [networkOutput "vpc", webRelease, networkOutput "zone"] networkJob).Holds .terraform links) ∧
    ∃ links, linkHelm plainDigest { maxEdges := .int 1 }
        [networkOutput "vpc", webRelease, networkOutput "zone"] networkJob = .ok links ∧
      (helmSearch { maxEdges := .int 1 } (.int 50) 1
        [networkOutput "vpc", webRelease, networkOutput "zone"] networkJob).Holds .helm links) ∧
    answerEdges (linkTerraform plainDigest { maxEdges := .int 1 }
      [networkOutput "vpc", webRelease, networkOutput "zone"] networkJob) = [("vpc", .int 100, 0)] ∧
    answerEdges (linkHelm plainDigest { maxEdges := .int 1 }
      [networkOutput "vpc", webRelease, networkOutput "zone"] networkJob) = [("web", .int 95, 1)] := by
  have facts : ∀ n ∈ [networkOutput "vpc", webRelease, networkOutput "zone"], n.HasTextFacts := by
    intro n hn entry hentry
    simp only [List.mem_cons, List.not_mem_nil, or_false] at hn
    rcases hn with rfl | rfl | rfl <;> cases List.mem_singleton.mp hentry <;> exact ⟨_, rfl⟩
  exact ⟨facts, linking_keeps_best facts rfl rfl (by decide) plainDigest networkJob,
    by decide +kernel, by decide +kernel⟩

/-- With no number as the least confidence, a node is linked although its score does not reach it. -/
theorem links_below_least :
    ¬ ∀ (digest : Digest) (options : LinkerOptions) (least : Number) (limit : Int)
      (nodes : List InfraNode) (job : JobNode) (links : Links), (∀ n ∈ nodes, n.HasTextFacts) →
      options.minConfidence.number? = some least → options.maxEdges.number? = some (.int limit) →
      0 ≤ limit → linkTerraform digest options nodes job = .ok links →
      ∀ m ∈ links.links, least.le m.confidence = true := by
  intro reaches
  have facts : ∀ n ∈ [networkOutput "vpc"], n.HasTextFacts := by
    intro n hn entry hentry
    cases List.mem_singleton.mp hn
    cases List.mem_singleton.mp hentry
    exact ⟨_, rfl⟩
  have hkept : (linkTerraform plainDigest { minConfidence := .number (.fraction .nan) }
      [networkOutput "vpc"] networkJob).toOption.map (fun found => found.links.map (·.confidence)) =
        some [.int 100] := by decide +kernel
  cases hlinks : linkTerraform plainDigest { minConfidence := .number (.fraction .nan) }
      [networkOutput "vpc"] networkJob with
  | error fault =>
      rw [hlinks] at hkept
      cases hkept
  | ok links =>
      rw [hlinks] at hkept
      have hall : links.links.map (·.confidence) = [.int 100] := Option.some.inj hkept
      have hmem : Number.int 100 ∈ links.links.map (·.confidence) := by
        rw [hall]
        exact List.mem_singleton_self _
      obtain ⟨m, hm, hconfidence⟩ := List.mem_map.mp hmem
      have hreaches := reaches _ _ _ 5 _ _ links facts rfl rfl (by decide) hlinks m hm
      rw [hconfidence] at hreaches
      cases hreaches

end DeployTrace
