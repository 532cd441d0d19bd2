/-
  DeployTrace/Proofs/Identities.lean --- which flows and which feeds go by one name.

  WHAT THIS FILE IS FOR.  The name of a flow is made from its two jobs and its output, the name of a feed
  from the two nodes that it joins.  Flows are told apart by more: two values of one step may take the
  same output, and both flows are reported.  So a name says less than a flow does, and it is shown here how
  much less.

  WHAT HOLDS.  Reported flows have different keys, whatever their jobs are called.  Those that go by one
  name differ in the path of the value and in nothing else of their keys.  Feeds that go by one name join the
  same two nodes, and their flows take the same output.

  THE TEXTS.  The parts of a name are joined by colons.  They are read back where only the last part may
  have a colon in it.  That is asked of the two flows or of the two feeds that are compared, and of no
  others: of the jobs of a flow, and of the node a feed starts from, which declares an output.
-/
import DeployTrace.Proofs.Feeds

set_option autoImplicit false

namespace DeployTrace

open Text

/-! ## Texts joined by colons -/

theorem colon_inj {a b x y : String} (ha : ':' ∉ a.toList) (hb : ':' ∉ b.toList) :
    a ++ ":" ++ x = b ++ ":" ++ y ↔ a = b ∧ x = y := by
  constructor
  · intro h
    have hchars : a.toList ++ ':' :: x.toList = b.toList ++ ':' :: y.toList := by
      simpa using congrArg String.toList h
    have hcut := congrArg (cutAt ':') hchars
    rw [cutAt_append_cons ha, cutAt_append_cons hb] at hcut
    obtain ⟨hab, hxy⟩ := Prod.mk.inj (Option.some.inj hcut)
    exact ⟨String.toList_inj.mp hab, String.toList_inj.mp hxy⟩
  · rintro ⟨rfl, rfl⟩
    rfl

theorem Flow.idText_joined (source target output : String) :
    Flow.idText source target output = "TF_HELM_FLOW:" ++ (source ++ ":" ++ (target ++ ":" ++ output)) := by
  unfold Flow.idText
  simp only [String.append_assoc]

/-- The text of a flow shows both jobs and the output. -/
theorem Flow.idText_inj {source source' target target' output output' : String}
    (hsource : ':' ∉ source.toList) (hsource' : ':' ∉ source'.toList) (htarget : ':' ∉ target.toList)
    (htarget' : ':' ∉ target'.toList) :
    Flow.idText source target output = Flow.idText source' target' output' ↔
      source = source' ∧ target = target' ∧ output = output' := by
  rw [Flow.idText_joined, Flow.idText_joined, String.append_right_inj, colon_inj hsource hsource',
    colon_inj htarget htarget']

/-- The text of an edge of a kind shows both nodes. -/
theorem edgeText_inj {kind source source' target target' : String} (hsource : ':' ∉ source.toList)
    (hsource' : ':' ∉ source'.toList) :
    edgeText kind source target = edgeText kind source' target' ↔ source = source' ∧ target = target' := by
  have joined : ∀ s t, edgeText kind s t = kind ++ ":" ++ (s ++ ":" ++ t) := by
    intro s t
    unfold edgeText
    simp only [String.append_assoc]
  rw [joined, joined, String.append_right_inj, colon_inj hsource hsource']

/-! ## Flows -/

/-- The text from which the name of a flow is made. -/
def Flow.nameText (f : Flow) : String := Flow.idText f.source.jobId f.target.jobId f.source.name

/-- Neither job of the flow has a colon in its name. -/
def Flow.HasPlainJobs (f : Flow) : Prop := ':' ∉ f.source.jobId.toList ∧ ':' ∉ f.target.jobId.toList

/-- How the names of two flows tell them apart. -/
structure Flow.NamedApart (f g : Flow) : Prop where
  alike : f.id = g.id ↔
    f.source.jobId = g.source.jobId ∧ f.target.jobId = g.target.jobId ∧ f.source.name = g.source.name
  paths : f.id = g.id → f.target.path ≠ g.target.path

section

variable {digest : Digest} {options : DetectorOptions} {workflow : Table} {file : String}
  {flows : List Flow} {f g : Flow}

/-- Whatever a detector finds goes by a name made from its ends. -/
theorem id_of_detect {d : Detector} (hd : d ∈ registeredDetectors digest) {ctx : Context}
    (hflows : d.detect ctx = .ok flows) (hf : f ∈ flows) :
    f.id = Flow.idFor digest f.source.jobId f.target.jobId f.source.name := by
  rw [detect_of_registered hd] at hflows
  obtain ⟨c, -, hc⟩ := (flowsOf_mem hflows).1 f hf
  rw [Candidate.flow_eq hc]
  rfl

theorem id_of_reported (hflows : detectFlows digest options (.table workflow) file = .ok flows)
    (hf : f ∈ flows) : f.id = Flow.idFor digest f.source.jobId f.target.jobId f.source.name := by
  obtain ⟨d, hd, found, seen, hfound, hstays⟩ := exists_detector_of_reported hflows hf
  exact id_of_detect hd hfound ((firstBy_sublist seen found).subset hstays)

theorem nodup_keys_of_reported (hflows : detectFlows digest options (.table workflow) file = .ok flows) :
    (flows.map Flow.key).Nodup := by
  rw [detectFlows_table] at hflows
  cases hflows
  exact nodup_keys_flowsInContext options (detectors digest) _

/-- Of two reported flows with different keys, the names are the same exactly if both jobs and the output
are. -/
theorem namedApart_of_reported (hflows : detectFlows digest options (.table workflow) file = .ok flows)
    (apart : digest.KeepsApart (flows.map Flow.nameText)) (hf : f ∈ flows) (hg : g ∈ flows)
    (hkeys : f.key ≠ g.key) (plainf : f.HasPlainJobs) (plaing : g.HasPlainJobs) : f.NamedApart g := by
  have alike : f.id = g.id ↔ f.source.jobId = g.source.jobId ∧ f.target.jobId = g.target.jobId ∧
      f.source.name = g.source.name := by
    rw [id_of_reported hflows hf, id_of_reported hflows hg, Flow.idFor, Flow.idFor,
      String.append_right_inj]
    exact (apart.short_inj (List.mem_map_of_mem hf) (List.mem_map_of_mem hg)).trans
      (Flow.idText_inj plainf.1 plaing.1 plainf.2 plaing.2)
  refine ⟨alike, fun hid hpath => hkeys ?_⟩
  obtain ⟨hsource, htarget, houtput⟩ := alike.mp hid
  unfold Flow.key
  rw [hsource, htarget, houtput, hpath]

end

/-! ## Feeds -/

/-- The text from which the name of a feed is made. -/
def FeedsInto.nameText (feed : FeedsInto) : String := edgeText feedsIntoKind feed.source feed.target

section

variable {digest : Digest} {scanId file : String} {nodes : List InfraNode} {edges : List OperatesOn}
  {flows : List Flow} {feeds : List FeedsInto}

theorem mem_of_findNode? {check : InfraNode → Except LinkFault Bool} {n : InfraNode}
    (h : findNode? check nodes = .ok (some n)) : n ∈ nodes := by
  induction nodes with
  | nil => cases h
  | cons m rest ih =>
      obtain ⟨found, -, h⟩ := exists_of_bind_eq_ok h
      cases found with
      | true =>
          cases h
          exact List.mem_cons_self
      | false => exact List.mem_cons_of_mem m (ih h)

/-- The node of a flow's output declares it. -/
theorem mem_of_outputNode? {f : Flow} {n : InfraNode} (h : outputNode? nodes f = .ok (some n)) :
    n ∈ nodes ∧ declaresOutput f.source.name n = true := by
  refine List.mem_filter.mp ?_
  unfold outputNode? at h
  simp only at h
  split at h
  · exact List.mem_of_head? (Except.ok.inj h)
  · obtain ⟨found, hfound, h⟩ := exists_of_bind_eq_ok h
    cases found with
    | none => exact List.mem_of_head? (Except.ok.inj h)
    | some m =>
        cases h
        exact mem_of_findNode? hfound

/-- A feed goes by a name made from its ends, and it starts from a node that declares the output of its
flow. -/
theorem ends_of_resolveFlows
    (hfeeds : resolveFlows digest scanId file nodes edges flows = .ok feeds) {feed : FeedsInto}
    (hfeed : feed ∈ feeds) :
    feed.id = edgeId digest feedsIntoKind feed.source feed.target ∧
      ∃ n ∈ nodes, declaresOutput feed.flow.source.name n = true ∧ feed.source = n.id := by
  obtain ⟨results, hresults, hfeeds⟩ := exists_of_bind_eq_ok hfeeds
  cases hfeeds
  obtain ⟨result, hresult, hsome⟩ := List.mem_filterMap.mp hfeed
  obtain ⟨f, -, hresolved⟩ := (mapM_eq_ok_mem hresults).1 result hresult
  obtain ⟨source, hsource, hresolved⟩ := exists_of_bind_eq_ok hresolved
  cases source with
  | none =>
      cases hresolved
      cases hsome
  | some n =>
      obtain ⟨hn, hdeclares⟩ := mem_of_outputNode? hsource
      obtain ⟨e, -, rfl⟩ := Option.map_eq_some_iff.mp ((Except.ok.inj hresolved).trans hsome)
      exact ⟨rfl, n, hn, hdeclares, rfl⟩

/-- Feeds go by one name exactly if they join the same nodes. -/
theorem feed_id_eq_iff (hfeeds : resolveFlows digest scanId file nodes edges flows = .ok feeds)
    (apart : digest.KeepsApart (feeds.map FeedsInto.nameText)) {a b : FeedsInto} (ha : a ∈ feeds)
    (hb : b ∈ feeds) (plaina : ':' ∉ a.source.toList) (plainb : ':' ∉ b.source.toList) :
    a.id = b.id ↔ a.source = b.source ∧ a.target = b.target := by
  rw [(ends_of_resolveFlows hfeeds ha).1, (ends_of_resolveFlows hfeeds hb).1, edgeId, edgeId,
    String.append_right_inj]
  exact (apart.short_inj (List.mem_map_of_mem ha) (List.mem_map_of_mem hb)).trans
    (edgeText_inj plaina plainb)

/-- Feeds from one node have one output, if nodes are told apart by their names. -/
theorem output_eq_of_source_eq (hfeeds : resolveFlows digest scanId file nodes edges flows = .ok feeds)
    (once : ∀ n ∈ nodes, ∀ m ∈ nodes, n.id = m.id → n = m) {a b : FeedsInto} (ha : a ∈ feeds) (hb : b ∈ feeds)
    (hsource : a.source = b.source) : a.flow.source.name = b.flow.source.name := by
  obtain ⟨-, n, hn, hdeclares, hna⟩ := ends_of_resolveFlows hfeeds ha
  obtain ⟨-, m, hm, hdeclares', hmb⟩ := ends_of_resolveFlows hfeeds hb
  obtain rfl : n = m := once n hn m hm (hna.symm.trans (hsource.trans hmb))
  have hfact := (declaresOutput_iff.mp hdeclares).2.symm.trans (declaresOutput_iff.mp hdeclares').2
  simpa using hfact

end

/-! ## What names tell apart -/

/-- Reported flows have different keys.  Two of them without a colon in the names of their jobs go by one
name exactly if both jobs and the output are the same, so that the paths of their values differ.  Two of their
feeds that start from nodes without a colon in their names go by one name exactly if they join the same nodes,
which takes flows of one output where different nodes have different names. -/
theorem names_alike {digest : Digest} {options : DetectorOptions} {workflow : Table} {file : String}
    {flows : List Flow} (hflows : detectFlows digest options (.table workflow) file = .ok flows) :
    (flows.map Flow.key).Nodup ∧
      (digest.KeepsApart (flows.map Flow.nameText) →
        flows.Pairwise fun f g => f.HasPlainJobs → g.HasPlainJobs → f.NamedApart g) ∧
      ∀ (scanId : String) (nodes : List InfraNode) (edges : List OperatesOn) (feeds : List FeedsInto),
        resolveFlows digest scanId file nodes edges flows = .ok feeds →
        digest.KeepsApart (feeds.map FeedsInto.nameText) →
        ∀ a ∈ feeds, ∀ b ∈ feeds, ':' ∉ a.source.toList → ':' ∉ b.source.toList →
          (a.id = b.id ↔ a.source = b.source ∧ a.target = b.target) ∧
          ((∀ n ∈ nodes, ∀ m ∈ nodes, n.id = m.id → n = m) → a.id = b.id →
            a.flow.source.name = b.flow.source.name) := by
  have hkeys : (flows.map Flow.key).Nodup := nodup_keys_of_reported hflows
  refine ⟨hkeys, fun apart => ?_, ?_⟩
  · exact (List.pairwise_map.mp hkeys).imp_of_mem fun hf hg => namedApart_of_reported hflows apart hf hg
  · intro scanId nodes edges feeds hfeeds feedsApart a ha b hb plaina plainb
    have alike : a.id = b.id ↔ a.source = b.source ∧ a.target = b.target :=
      feed_id_eq_iff hfeeds feedsApart ha hb plaina plainb
    exact ⟨alike, fun once hid => output_eq_of_source_eq hfeeds once ha hb (alike.mp hid).1⟩

/-! ### Two values of one output -/

/-- A step that hands one output to two values. -/
def sharedOutput : Table :=
  scriptWorkflow ["helm upgrade w c --set a=$(terraform output x),b=$(terraform output x)"]

/-- The job, linked to the nodes of the output and of the release. -/
def sharedScene : Scene := plainScene sharedOutput ["x"] ["w"]

theorem sharedScene_of : sharedScene.Of sharedOutput "scan" := plainScene_of (by decide +kernel)

/-- The two flows of the step. -/
def sharedFlows : List Flow := flowsInContext {} (detectors plainDigest) (.ofTable sharedOutput "ci.yml")

theorem detectFlows_sharedOutput :
    detectFlows plainDigest {} (.table sharedOutput) "ci.yml" = .ok sharedFlows :=
  detectFlows_table sharedOutput

theorem sharedFlows_keys : sharedFlows.map Flow.key = [⟨"d", "x", "d", "a"⟩, ⟨"d", "x", "d", "b"⟩] := by
  decide +kernel

theorem sharedFeeds_ends :
    feedEnds (sharedScene.feeds "scan" sharedFlows) =
      [("output-x", "release-w"), ("output-x", "release-w")] := by
  decide +kernel

theorem exists_sharedFeeds : ∃ feeds, sharedScene.feeds "scan" sharedFlows = .ok feeds ∧
    feeds.map (fun feed => (feed.source, feed.target)) =
      [("output-x", "release-w"), ("output-x", "release-w")] := by
  have hends := sharedFeeds_ends
  revert hends
  unfold feedEnds
  cases sharedScene.feeds "scan" sharedFlows with
  | error fault => exact fun hends => absurd hends (by simp [Except.toOption])
  | ok feeds => exact fun hends => ⟨feeds, rfl, hends⟩

/-- The two flows have different keys and one name, and their feeds go by one name. -/
theorem names_alike_shared : sharedFlows.map Flow.key = [⟨"d", "x", "d", "a"⟩, ⟨"d", "x", "d", "b"⟩] ∧
    sharedFlows.Pairwise Flow.NamedApart ∧
    ∃ feeds, sharedScene.feeds "scan" sharedFlows = .ok feeds ∧ feeds.length = 2 ∧
      ∀ a ∈ feeds, ∀ b ∈ feeds, a.id = b.id ∧ a.flow.source.name = b.flow.source.name := by
  have plain : ∀ f ∈ sharedFlows, f.HasPlainJobs := by
    have hkeys : ∀ key ∈ sharedFlows.map Flow.key,
        ':' ∉ key.sourceJob.toList ∧ ':' ∉ key.targetJob.toList := by
      rw [sharedFlows_keys]
      decide
    exact fun f hf => hkeys f.key (List.mem_map_of_mem hf)
  obtain ⟨-, flowsApart, feedsApart⟩ := names_alike detectFlows_sharedOutput
  obtain ⟨feeds, hfeeds, hends⟩ := exists_sharedFeeds
  have alike := feedsApart "scan" _ _ feeds hfeeds (fun _ _ _ _ h => h)
  have ends : ∀ feed ∈ feeds, feed.source = "output-x" ∧ feed.target = "release-w" := by
    intro feed hfeed
    have hmem : (feed.source, feed.target) ∈ [("output-x", "release-w"), ("output-x", "release-w")] := by
      rw [← hends]
      exact List.mem_map_of_mem hfeed
    simpa using hmem
  have once : ∀ n ∈ sharedScene.infra.terraform, ∀ m ∈ sharedScene.infra.terraform,
      n.id = m.id → n = m := by
    intro n hn m hm _
    exact (List.mem_singleton.mp hn).trans (List.mem_singleton.mp hm).symm
  refine ⟨sharedFlows_keys, ?_, feeds, hfeeds, by simpa using congrArg List.length hends, ?_⟩
  · exact (flowsApart fun _ _ _ _ h => h).imp_of_mem fun hf hg named => named (plain _ hf) (plain _ hg)
  · intro a ha b hb
    have plainSource : ∀ feed ∈ feeds, ':' ∉ feed.source.toList := by
      intro feed hfeed
      rw [(ends feed hfeed).1]
      decide
    obtain ⟨hiff, houtput⟩ := alike a ha b hb (plainSource a ha) (plainSource b hb)
    have hid : a.id = b.id :=
      hiff.mpr ⟨(ends a ha).1.trans (ends b hb).1.symm, (ends a ha).2.trans (ends b hb).2.symm⟩
    exact ⟨hid, houtput once hid⟩

/-- Neither do the names of reported flows tell all of them apart, nor do those of their feeds. -/
theorem names_not_distinct :
    (¬ ∀ (digest : Digest) (options : DetectorOptions) (workflow : Table) (file : String)
      (flows : List Flow), Function.Injective digest.short →
      detectFlows digest options (.table workflow) file = .ok flows → (flows.map Flow.id).Nodup) ∧
    ¬ ∀ (s : Scene) (options : DetectorOptions) (workflow : Table) (scanId : String)
      (flows : List Flow) (feeds : List FeedsInto), Function.Injective s.digest.short →
      s.Of workflow scanId →
      detectFlows s.digest options (.table workflow) s.file = .ok flows →
      s.feeds scanId flows = .ok feeds → (feeds.map FeedsInto.id).Nodup := by
  constructor
  · intro distinct
    have hids := distinct plainDigest {} sharedOutput "ci.yml" sharedFlows (fun _ _ h => h)
      detectFlows_sharedOutput
    have hnames : sharedFlows.map Flow.id =
        (sharedFlows.map Flow.key).map fun k => Flow.idFor plainDigest k.sourceJob k.targetJob k.output := by
      rw [List.map_map]
      exact List.map_congr_left fun f hf => id_of_reported detectFlows_sharedOutput hf
    rw [hnames, sharedFlows_keys] at hids
    simp at hids
  · intro distinct
    obtain ⟨feeds, hfeeds, hends⟩ := exists_sharedFeeds
    have hids := distinct sharedScene {} sharedOutput "scan" sharedFlows feeds (fun _ _ h => h) sharedScene_of
      detectFlows_sharedOutput hfeeds
    have hnames : feeds.map FeedsInto.id = (feeds.map fun feed => (feed.source, feed.target)).map
        fun ends => edgeId plainDigest feedsIntoKind ends.1 ends.2 := by
      rw [List.map_map]
      exact List.map_congr_left fun feed hfeed => (ends_of_resolveFlows hfeeds hfeed).1
    rw [hnames, hends] at hids
    simp at hids

end DeployTrace
