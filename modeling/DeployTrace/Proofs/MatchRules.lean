/-
  DeployTrace/Proofs/MatchRules.lean --- the score of a node as a ranking of rules.

  WHAT THIS FILE IS FOR.  A node is scored by asking rule after rule, and some rules are only asked when the
  ones before have not found much.  What comes out does not depend on that order, and it is said here
  without one.  A rule has a condition on the job, the operation and the node, and a score.  The rules form
  tiers; the first tier in which some rule applies decides, by its highest score:

      Helm        release 95, chart 85, chart's path 80, namespace 75;  near files 55;  names alike
      Terraform   directory, or else near files 60, and output 90;                      names alike

  The four Helm scores are different, so that one of them is the highest.  The likeness of a directory can
  be 90 as well, and then its reason is kept.

  HOW.  The rules asked so far have a highest score (`BestOf`), and one more rule keeps this
  (`BestOf.consider`).  A score of fifty keeps the weak rules out (`Ranks.after`), and every rule of the
  first tiers gives at least as much.
-/
import DeployTrace.Proofs.LinkScores
import Mathlib.Data.List.Nodup

set_option autoImplicit false

namespace DeployTrace

open Text

/-! ## Rules -/

/-- A rule: when it speaks for a node, and the score it then gives. -/
structure MatchRule where
  Applies : Prop
  score : LinkScore

/-- A score is the highest that rules give: one that applies gives it, and none that applies gives more. -/
def Highest (rules : List MatchRule) (s : LinkScore) : Prop :=
  (∃ r ∈ rules, r.Applies ∧ r.score = s) ∧ ∀ r ∈ rules, r.Applies → r.score.confidence ≤ s.confidence

/-- The best score of some rules: the highest, or none when no rule applies. -/
structure BestOf (rules : List MatchRule) (best : Option LinkScore) : Prop where
  highest : ∀ s ∈ best, Highest rules s
  silent : best = none → ∀ r ∈ rules, ¬ r.Applies

/-- The best score of rules in tiers: that of the first tier in which a rule applies. -/
def Ranks : List (List MatchRule) → Option LinkScore → Prop
  | [], best => best = none
  | tier :: later, best => (∃ s, Highest tier s ∧ best = some s) ∨ ((∀ r ∈ tier, ¬ r.Applies) ∧ Ranks later best)

/-- The confidence of a score, zero without one. -/
def confidenceOf (best : Option LinkScore) : Int := best.elim 0 (·.confidence)

section

variable {rules tier : List MatchRule} {later : List (List MatchRule)} {r : MatchRule} {best : Option LinkScore}

theorem bestOf_nil : BestOf [] none :=
  ⟨fun s hs => absurd hs (Option.not_mem_none s), fun _ _ h => absurd h List.not_mem_nil⟩

theorem bestOf_some {s : LinkScore} (h : Highest rules s) : BestOf rules (some s) :=
  ⟨fun _ ht => Option.some.inj ht ▸ h, fun hnone => absurd hnone (Option.some_ne_none s)⟩

/-- A highest score is still the highest with a rule that gives no more. -/
theorem Highest.keep {s : LinkScore} (h : Highest rules s) (hr : r.Applies → r.score.confidence ≤ s.confidence) :
    Highest (r :: rules) s := by
  obtain ⟨⟨t, ht, happlies, hscore⟩, hmax⟩ := h
  exact ⟨⟨t, List.mem_cons_of_mem r ht, happlies, hscore⟩, List.forall_mem_cons.mpr ⟨hr, hmax⟩⟩

/-- A rule that does not apply changes nothing. -/
theorem BestOf.skip (h : BestOf rules best) (hr : ¬ r.Applies) : BestOf (r :: rules) best :=
  ⟨fun s hs => (h.highest s hs).keep fun happlies => absurd happlies hr,
    fun hnone => List.forall_mem_cons.mpr ⟨hr, h.silent hnone⟩⟩

/-- One more rule, which counts if it gives more than the best score so far. -/
theorem BestOf.consider (h : BestOf rules best) (c : Int) (reason : MatchReason) {applies : Bool} {P : Prop}
    (hP : applies = true ↔ P) (hpos : P → 0 < c) :
    BestOf (⟨P, ⟨c, reason⟩⟩ :: rules) (consideredIf best applies c reason) := by
  cases applies with
  | false => exact h.skip fun hrule => Bool.false_ne_true (hP.mpr hrule)
  | true =>
      have hrule : P := hP.mp rfl
      unfold consideredIf considered
      rw [if_pos rfl]
      cases best with
      | none =>
          rw [if_pos (hpos hrule)]
          refine bestOf_some ⟨⟨_, List.mem_cons_self, hrule, rfl⟩, List.forall_mem_cons.mpr ⟨fun _ => le_rfl, ?_⟩⟩
          exact fun t ht hother => absurd hother (h.silent rfl t ht)
      | some s =>
          have hs := h.highest s rfl
          by_cases hlt : s.confidence < c
          · simp only [if_pos hlt]
            refine bestOf_some ⟨⟨_, List.mem_cons_self, hrule, rfl⟩, List.forall_mem_cons.mpr ⟨fun _ => le_rfl, ?_⟩⟩
            exact fun t ht hother => (hs.2 t ht hother).trans hlt.le
          · simp only [if_neg hlt]
            exact bestOf_some (hs.keep fun _ => not_lt.mp hlt)

/-- The order of rules does not count. -/
theorem BestOf.congr {rules' : List MatchRule} (h : BestOf rules best) (hmem : ∀ r, r ∈ rules ↔ r ∈ rules') :
    BestOf rules' best := by
  refine ⟨fun s hs => ?_, fun hnone r hr => h.silent hnone r ((hmem r).mpr hr)⟩
  obtain ⟨⟨r, hr, happlies, hscore⟩, hmax⟩ := h.highest s hs
  exact ⟨⟨r, (hmem r).mp hr, happlies, hscore⟩, fun t ht => hmax t ((hmem t).mpr ht)⟩

/-- Where a best score is kept by the rules that come later, and without one they rank, all of them rank. -/
theorem Ranks.after (h : BestOf tier best) {f : Option LinkScore → Option LinkScore}
    (hkeep : ∀ s ∈ best, f best = best) (hlater : Ranks later (f none)) : Ranks (tier :: later) (f best) := by
  cases best with
  | none => exact Or.inr ⟨h.silent rfl, hlater⟩
  | some s => exact Or.inl ⟨s, h.highest s rfl, hkeep s rfl⟩

theorem Ranks.single (h : BestOf tier best) : Ranks [tier] best :=
  .after (f := id) h (fun _ _ => rfl) rfl

/-- Tiers give one best score, if of the scores of a tier with some property only one can be the highest. -/
theorem Ranks.unique {tiers : List (List MatchRule)} {P : LinkScore → Prop} {other : Option LinkScore}
    (hone : ∀ tier ∈ tiers, ∀ s t, Highest tier s → Highest tier t → P s → P t → s = t)
    (h : Ranks tiers best) (h' : Ranks tiers other) (hP : ∀ s ∈ best, P s) (hP' : ∀ s ∈ other, P s) :
    best = other := by
  induction tiers with
  | nil => exact h.trans h'.symm
  | cons tier later ih =>
      rcases h with ⟨s, hs, rfl⟩ | ⟨hnone, hlater⟩ <;> rcases h' with ⟨t, ht, rfl⟩ | ⟨hnone', hlater'⟩
      · rw [hone tier List.mem_cons_self s t hs ht (hP s rfl) (hP' t rfl)]
      · obtain ⟨r, hr, happlies, -⟩ := hs.1
        exact absurd happlies (hnone' r hr)
      · obtain ⟨r, hr, happlies, -⟩ := ht.1
        exact absurd happlies (hnone r hr)
      · exact ih (fun tier htier => hone tier (List.mem_cons_of_mem _ htier)) hlater hlater'

theorem Ranks.confidence_pos {tiers : List (List MatchRule)} (h : Ranks tiers best)
    (hpos : ∀ tier ∈ tiers, ∀ r ∈ tier, r.Applies → 0 < r.score.confidence) :
    ∀ s ∈ best, 0 < s.confidence := by
  induction tiers with
  | nil =>
      obtain rfl : best = none := h
      exact fun s hs => absurd hs (Option.not_mem_none s)
  | cons tier later ih =>
      rcases h with ⟨s, ⟨⟨r, hr, happlies, rfl⟩, -⟩, rfl⟩ | ⟨-, hlater⟩
      · rintro s hs
        obtain rfl := Option.mem_some.mp hs
        exact hpos tier List.mem_cons_self r hr happlies
      · exact ih hlater fun tier htier => hpos tier (List.mem_cons_of_mem _ htier)

end

/-! ## What the rules ask -/

/-- A fact about a node as a text, unless it is empty. -/
def InfraNode.textFact? (n : InfraNode) (name : String) : Option String := nonempty? (n.fact name).text?

section

variable (job : JobNode) (o : Operation) (n : InfraNode) (options : LinkerOptions)

/-- The operation is about the release that the node is. -/
def SameRelease : Prop :=
  ∃ release ∈ nonempty? (releaseName? o.text), ∃ own ∈ n.textFact? "releaseName",
    plainName release = plainName own

/-- The name of the node's chart stands in the reference to a chart, without regard to case. -/
def RefersToOwnChart : Prop :=
  ∃ reference ∈ nonempty? (chartReference? o.text), ∃ chart ∈ n.textFact? "chartName",
    (lower chart).toList <:+: (lower reference).toList

/-- The operation works where the node's chart is, or refers to it by its path. -/
def IsAtOwnChart : Prop :=
  ∃ path ∈ n.textFact? "chartPath", ∃ place ∈ (nonempty? o.workingDir).toList ++
    (nonempty? (chartReference? o.text)).toList, 80 ≤ pathSimilarity place path

/-- The namespace of an operation: named in its text, or else the environment of the job. -/
def namespaceOf : Option String := (nonempty? (Shell.Helm.namespace? o.text.toList)).or (nonempty? job.environment)

/-- The operation is in the namespace of the node. -/
def SameNamespace : Prop := ∃ name ∈ namespaceOf job o, n.fact "namespace" = .text name

/-- The files of the job and the node are in directories that are related. -/
def IsNear : Prop := pathsRelated (plainDirectory job.filePath) (plainDirectory n.filePath) = true

/-- A name around the operation is like the node's, and names may count. -/
def IsNamedAlike : Prop := options.nameSimilarity.isTruthy = true ∧ 60 ≤ bestNameSimilarity job o n

/-- How alike the directory of an operation and the node's module are, zero if one of them is not known. -/
def homeSimilarity : Int :=
  match nonempty? o.workingDir, nonempty? (modulePath n).text? with
  | some dir, some home => pathSimilarity dir home
  | _, _ => 0

/-- The node is an output, and the operation names it. -/
def NamesOutput : Prop :=
  n.kind = .terraformOutput ∧ ∃ name ∈ o.outputs, plainName name = plainName ((n.textFact? "outputName").getD n.name)

/-- The directory of the operation tells a score. -/
def HasDirectoryScore : Prop :=
  80 ≤ homeSimilarity o n ∨ (50 ≤ homeSimilarity o n ∧ options.fuzzyPaths.isTruthy = true)

/-- The rule of alike names, which comes last. -/
def nameRule : MatchRule := ⟨IsNamedAlike job o n options, ⟨nameScore (bestNameSimilarity job o n), .nameSimilarity⟩⟩

/-- The weak rules: near files, which are worth so much, and then alike names. -/
def weakRules (near : Int) : List (List MatchRule) :=
  [[⟨IsNear job n, ⟨near, .directoryProximity⟩⟩], [nameRule job o n options]]

/-- The first tier of the rules for Helm. -/
def chartRules : List MatchRule :=
  [⟨SameRelease o n, ⟨95, .releaseName⟩⟩, ⟨RefersToOwnChart o n, ⟨85, .chartName⟩⟩,
    ⟨IsAtOwnChart o n, ⟨80, .chartName⟩⟩, ⟨SameNamespace job o n, ⟨75, .namespaceName⟩⟩]

/-- The rules for Helm. -/
def helmRules : List (List MatchRule) := chartRules job o n :: weakRules job o n options 55

/-- The first tier of the rules for Terraform: nearness stands in for a directory that tells nothing. -/
def moduleRules : List MatchRule :=
  [⟨80 ≤ homeSimilarity o n, ⟨homeSimilarity o n, .workingDir⟩⟩,
    ⟨50 ≤ homeSimilarity o n ∧ homeSimilarity o n < 80 ∧ options.fuzzyPaths.isTruthy = true,
      ⟨homeSimilarity o n, .directoryProximity⟩⟩,
    ⟨¬ HasDirectoryScore o n options ∧ IsNear job n, ⟨60, .directoryProximity⟩⟩,
    ⟨NamesOutput o n, ⟨90, .outputReference⟩⟩]

/-- The best score of that tier, for an operation that names the node or not. -/
def moduleBest (named : Bool) : Option LinkScore :=
  consideredIf (consideringNearness 60 job n (directoryScore (homeSimilarity o n) options)) named 90 .outputReference

/-- The rules for Terraform. -/
def terraformRules : List (List MatchRule) := [moduleRules job o n options, [nameRule job o n options]]

end

/-! ## Facts that are read -/

section

variable {t : Tree} {text : Option String}

theorem nonempty?_of_absent (h : t.isTruthy = false) : nonempty? t.text? = none := by
  refine Option.filter_eq_none_iff.mpr fun s hs => ?_
  cases t with
  | leaf scalar =>
      cases scalar with
      | text own =>
          obtain rfl := Option.some.inj hs
          simpa [Tree.isTruthy, Scalar.isTruthy] using h
      | _ => cases hs
  | _ => cases hs

theorem nonempty?_text {s : String} (h : s.isEmpty = false) : nonempty? (some s) = some s := by
  unfold nonempty?
  rw [Option.filter_some, h]
  rfl

theorem textFact_ok (h : textFact t = .ok text) : text = nonempty? t.text? := by
  unfold textFact at h
  split at h
  · rename_i habsent
    rw [nonempty?_of_absent (by simpa using habsent), ← Except.ok.inj h]
  · rename_i hpresent
    split at h
    · rename_i s
      have hsolid : s.isEmpty = false := by simpa [Tree.isTruthy, Scalar.isTruthy] using hpresent
      rw [← Except.ok.inj h]
      exact (nonempty?_text hsolid).symm
    · cases h

theorem isSome_of_textFact (h : textFact t = .ok text) (ht : t.isTruthy = true) : text.isSome = true := by
  unfold textFact at h
  simp only [ht, Bool.not_true, Bool.false_eq_true, if_false] at h
  split at h
  · rw [← Except.ok.inj h]
    rfl
  · cases h

/-- A fact with a text that stands in for it, once it is read. -/
theorem textFact_orElse {s : String} (h : textFact (t.orElse (.text s)) = .ok text) :
    text.getD "" = (nonempty? t.text?).getD s := by
  unfold Tree.orElse at h
  split at h
  · rename_i hpresent
    obtain ⟨own, rfl⟩ := Option.isSome_iff_exists.mp (isSome_of_textFact h hpresent)
    rw [← textFact_ok h]
    rfl
  · rename_i habsent
    rw [nonempty?_of_absent (Bool.eq_false_iff.mpr habsent), textFact_ok h]
    cases hs : s.isEmpty with
    | true =>
        rw [String.isEmpty_iff.mp hs]
        rfl
    | false =>
        rw [show (Tree.text s).text? = some s from rfl, nonempty?_text hs]
        rfl

theorem textFactFor_ok {needed : Bool} (h : textFactFor needed t = .ok text) :
    text = if needed then nonempty? t.text? else none := by
  unfold textFactFor at h
  split at h
  · rename_i hneeded
    rw [if_pos hneeded]
    exact textFact_ok h
  · rename_i hneeded
    rw [if_neg hneeded]
    exact (Except.ok.inj h).symm

end

section

variable {first second : Option String}

/-- A test of two texts, of which the second is only read when there is a first. -/
theorem bothPass_iff {t : String → String → Bool} :
    (match first, (if first.isSome then second else none) with
      | some a, some b => t a b
      | _, _ => false) = true ↔ ∃ a ∈ first, ∃ b ∈ second, t a b = true := by
  cases first with
  | none => simp
  | some a => cases second <;> simp

/-- A test of a text and of places, of which the text is only read when there are places. -/
theorem anyPasses_iff {places : List String} {t : String → String → Bool} :
    (match (if !places.isEmpty then second else none) with
      | some b => places.any fun a => t a b
      | none => false) = true ↔ ∃ b ∈ second, ∃ a ∈ places, t a b = true := by
  cases places with
  | nil => simp
  | cons a rest => cases second <;> simp

end

section

variable (job : JobNode) (o : Operation) (n : InfraNode)

theorem isAtOwnChart_iff : (match (if !((nonempty? o.workingDir).toList ++
        (nonempty? (chartReference? o.text)).toList).isEmpty then n.textFact? "chartPath" else none) with
      | some b => ((nonempty? o.workingDir).toList ++ (nonempty? (chartReference? o.text)).toList).any
          fun a => decide (80 ≤ pathSimilarity a b)
      | none => false) = true ↔ IsAtOwnChart o n := by
  rw [anyPasses_iff (t := fun a b => decide (80 ≤ pathSimilarity a b))]
  simp only [IsAtOwnChart, decide_eq_true_eq]

theorem sameRelease_iff : (match nonempty? (releaseName? o.text),
      (if (nonempty? (releaseName? o.text)).isSome then n.textFact? "releaseName" else none) with
      | some a, some b => plainName a == plainName b
      | _, _ => false) = true ↔ SameRelease o n := by
  rw [bothPass_iff (t := fun a b => plainName a == plainName b)]
  simp only [SameRelease, beq_iff_eq]

theorem refersToOwnChart_iff : (match nonempty? (chartReference? o.text),
      (if (nonempty? (chartReference? o.text)).isSome then n.textFact? "chartName" else none) with
      | some a, some b => refersToChart a b
      | _, _ => false) = true ↔ RefersToOwnChart o n := by
  rw [bothPass_iff (t := refersToChart)]
  simp only [RefersToOwnChart, refersToChart, contains, hasPart_iff]

theorem sameNamespace_iff : (match (match nonempty? (Shell.Helm.namespace? o.text.toList) with
        | some name => some name
        | none => nonempty? job.environment), n.fact "namespace" with
      | some a, .text b => a == b
      | _, _ => false) = true ↔ SameNamespace job o n := by
  have hnamed : (match nonempty? (Shell.Helm.namespace? o.text.toList) with
      | some name => some name
      | none => nonempty? job.environment) = namespaceOf job o := by
    unfold namespaceOf
    cases nonempty? (Shell.Helm.namespace? o.text.toList) <;> rfl
  rw [hnamed]
  unfold SameNamespace
  cases namespaceOf job o with
  | none => simp
  | some name =>
      simp only [Option.mem_def, Option.some.injEq, exists_eq_left']
      split
      · rename_i a b ha hfact
        obtain rfl := Option.some.inj ha
        rw [hfact, beq_iff_eq]
        simp [eq_comm]
      · rename_i hother
        simpa using fun hfact => hother name name rfl hfact

/-- Scoring for Helm fails whatever the options are, or it asks the weak rules after the best score of the
first tier. -/
theorem helmScore_cases (job : JobNode) (o : Operation) (n : InfraNode) :
    (∃ fault, ∀ options, helmScore job o n options = .error fault) ∨
    ∃ best, BestOf (chartRules job o n) best ∧ ∀ options, helmScore job o n options =
      .ok (consideringNames job o n options (consideringNearness 55 job n best)) := by
  unfold helmScore
  cases hpath : textFactFor (!((nonempty? o.workingDir).toList ++
      (nonempty? (chartReference? o.text)).toList).isEmpty) (n.fact "chartPath") with
  | error fault => exact Or.inl ⟨fault, fun _ => by simp only [hpath]; rfl⟩
  | ok path =>
  cases hrelease : textFactFor (nonempty? (releaseName? o.text)).isSome (n.fact "releaseName") with
  | error fault => exact Or.inl ⟨fault, fun _ => by simp only [hpath, hrelease]; rfl⟩
  | ok release =>
  cases hchart : textFactFor (nonempty? (chartReference? o.text)).isSome (n.fact "chartName") with
  | error fault => exact Or.inl ⟨fault, fun _ => by simp only [hpath, hrelease, hchart]; rfl⟩
  | ok chart =>
      simp only [hpath, hrelease, hchart]
      refine Or.inr ⟨_, ?_, fun _ => rfl⟩
      obtain rfl := textFactFor_ok hpath
      obtain rfl := textFactFor_ok hrelease
      obtain rfl := textFactFor_ok hchart
      have hplace := bestOf_nil.consider 80 .chartName (isAtOwnChart_iff o n) fun _ => by decide
      have hrelease := hplace.consider 95 .releaseName (sameRelease_iff o n) fun _ => by decide
      have hchart := hrelease.consider 85 .chartName (refersToOwnChart_iff o n) fun _ => by decide
      have hbest := hchart.consider 75 .namespaceName (sameNamespace_iff job o n) fun _ => by decide
      refine hbest.congr fun r => ?_
      simp only [chartRules, List.mem_cons, List.not_mem_nil, or_false]
      grind

theorem namesOutput_iff {output : Option String}
    (h : textFactFor (!o.outputs.isEmpty && n.kind == .terraformOutput)
      ((n.fact "outputName").orElse (.text n.name)) = .ok output) :
    (!o.outputs.isEmpty && n.kind == .terraformOutput && namesOutput o (output.getD "")) = true ↔
      NamesOutput o n := by
  unfold textFactFor at h
  split at h
  · rename_i hneeded
    have hname : output.getD "" = (n.textFact? "outputName").getD n.name := textFact_orElse h
    obtain ⟨-, hkind⟩ := Bool.and_eq_true_iff.mp hneeded
    rw [hneeded, Bool.true_and, hname]
    simp only [namesOutput, List.any_eq_true, beq_iff_eq, NamesOutput, beq_iff_eq.mp hkind, true_and]
  · rename_i hneedless
    rw [Bool.eq_false_iff.mpr hneedless, Bool.false_and]
    refine iff_of_false Bool.false_ne_true fun ⟨hkind, name, hname, _⟩ => hneedless ?_
    rw [hkind, beq_self_eq_true, Bool.and_true]
    simp [List.ne_nil_of_mem hname]

theorem directoryScore_read (options : LinkerOptions) :
    (match nonempty? o.workingDir,
        (if (nonempty? o.workingDir).isSome then nonempty? (modulePath n).text? else none) with
      | some dir, some home => directoryScore (pathSimilarity dir home) options
      | _, _ => none) = directoryScore (homeSimilarity o n) options := by
  unfold homeSimilarity
  cases nonempty? o.workingDir with
  | none => rfl
  | some dir => cases nonempty? (modulePath n).text? <;> rfl

/-- Scoring for Terraform fails whatever the options are, or it asks the rules one after the other. -/
theorem terraformScore_cases : (∃ fault, ∀ options, terraformScore job o n options = .error fault) ∨
    ∃ named : Bool, (named = true ↔ NamesOutput o n) ∧ ∀ options, terraformScore job o n options =
      .ok (consideringNames job o n options (moduleBest job o n options named)) := by
  unfold terraformScore
  cases hhome : textFactFor (nonempty? o.workingDir).isSome (modulePath n) with
  | error fault => exact Or.inl ⟨fault, fun _ => by simp only [hhome]; rfl⟩
  | ok home =>
  cases houtput : textFactFor (!o.outputs.isEmpty && n.kind == .terraformOutput)
      ((n.fact "outputName").orElse (.text n.name)) with
  | error fault => exact Or.inl ⟨fault, fun _ => by simp only [hhome]; rfl⟩
  | ok output =>
      refine Or.inr ⟨_, namesOutput_iff o n houtput, fun options => ?_⟩
      simp only [hhome]
      obtain rfl := textFactFor_ok hhome
      rw [moduleBest, ← directoryScore_read]
      rfl

end

/-! ## The weak rules -/

section

variable {job : JobNode} {o : Operation} {n : InfraNode} {options : LinkerOptions} {s : LinkScore}
  {tier : List MatchRule} {best : Option LinkScore}

theorem consideringNearness_of_strong (near : Int) (h : 50 ≤ s.confidence) :
    consideringNearness near job n (some s) = some s := by
  have hstrong : isWeak (some s) = false := by simpa [isWeak] using h
  unfold consideringNearness consideredIf
  simp only [hstrong, Bool.false_and, Bool.false_eq_true, if_false]

theorem consideringNames_of_strong (h : 50 ≤ s.confidence) :
    consideringNames job o n options (some s) = some s := by
  have hstrong : isWeak (some s) = false := by simpa [isWeak] using h
  unfold consideringNames
  rw [hstrong, Bool.false_and]
  rfl

/-- What alike names are worth is between what fifty leaves and the worth of equal names. -/
theorem nameScore_between : ∀ k < 41, 0 < nameScore (60 + (k : Nat)) ∧ nameScore (60 + (k : Nat)) ≤ 70 := by
  decide +kernel

theorem nameScore_bounds {similarity : Int} (h : 60 ≤ similarity) (h' : IsScore similarity) :
    0 < nameScore similarity ∧ nameScore similarity ≤ 70 := by
  obtain ⟨k, hk⟩ : ∃ k : Nat, similarity = 60 + k := ⟨(similarity - 60).toNat, by omega⟩
  have hle := h'.2
  rw [hk]
  exact nameScore_between k (by omega)

theorem nameRule_pos (h : IsNamedAlike job o n options) : 0 < nameScore (bestNameSimilarity job o n) :=
  (nameScore_bounds h.2 (isScore_bestNameSimilarity job o n)).1

/-- Without a score so far, near files are the best score of their own rule. -/
theorem bestOf_near {near : Int} (hpos : 0 < near) :
    BestOf [⟨IsNear job n, ⟨near, .directoryProximity⟩⟩] (consideringNearness near job n none) := by
  have hnone : isWeak none = true := rfl
  unfold consideringNearness
  simp only [hnone, Bool.true_and]
  exact bestOf_nil.consider _ _ Iff.rfl fun _ => hpos

/-- Without a score so far, alike names are the best score of their own rule. -/
theorem bestOf_names : BestOf [nameRule job o n options] (consideringNames job o n options none) := by
  unfold consideringNames nameRule
  cases hnames : options.nameSimilarity.isTruthy with
  | false => exact bestOf_nil.skip fun h => absurd h.1 (by simp [hnames])
  | true =>
      refine bestOf_nil.consider _ _ ?_ nameRule_pos
      simp [IsNamedAlike, hnames]

/-- A tier whose rules all give fifty or more decides before the weak rules. -/
theorem strong_of_bestOf (h : BestOf tier best) (hstrong : ∀ r ∈ tier, r.Applies → 50 ≤ r.score.confidence) :
    ∀ s ∈ best, 50 ≤ s.confidence := by
  intro s hs
  obtain ⟨r, hr, happlies, rfl⟩ := (h.highest s hs).1
  exact hstrong r hr happlies

theorem chartRules_strong : ∀ r ∈ chartRules job o n, r.Applies → 50 ≤ r.score.confidence := by
  simp [chartRules]

theorem moduleRules_strong : ∀ r ∈ moduleRules job o n options, r.Applies → 50 ≤ r.score.confidence := by
  simp [moduleRules]
  omega

/-- Without a score so far, the weak rules rank. -/
theorem ranks_weak {near : Int} (hnear : 50 ≤ near) :
    Ranks (weakRules job o n options near)
      (consideringNames job o n options (consideringNearness near job n none)) := by
  have hbest : BestOf [⟨IsNear job n, ⟨near, .directoryProximity⟩⟩] (consideringNearness near job n none) :=
    bestOf_near (by omega)
  refine Ranks.after hbest (fun s hs => ?_) (.single bestOf_names)
  have hfifty := strong_of_bestOf hbest (by simp [hnear]) s hs
  rw [Option.mem_def.mp hs, consideringNames_of_strong hfifty]

/-- The rules for Helm rank. -/
theorem ranks_helm (h : BestOf (chartRules job o n) best) : Ranks (helmRules job o n options)
    (consideringNames job o n options (consideringNearness 55 job n best)) := by
  refine Ranks.after (f := fun best => consideringNames job o n options (consideringNearness 55 job n best))
    h (fun s hs => ?_) (ranks_weak (by decide))
  have hfifty := strong_of_bestOf h chartRules_strong s hs
  simp only [Option.mem_def.mp hs, consideringNearness_of_strong 55 hfifty, consideringNames_of_strong hfifty]

/-- The directory of the operation gives the score of its rules. -/
theorem bestOf_directory : BestOf
    [⟨50 ≤ homeSimilarity o n ∧ homeSimilarity o n < 80 ∧ options.fuzzyPaths.isTruthy = true,
        ⟨homeSimilarity o n, .directoryProximity⟩⟩,
      ⟨80 ≤ homeSimilarity o n, ⟨homeSimilarity o n, .workingDir⟩⟩]
    (directoryScore (homeSimilarity o n) options) := by
  unfold directoryScore
  split
  · rename_i hworks
    have hscore := bestOf_nil.consider (homeSimilarity o n) .workingDir (iff_of_true (rfl : true = true) hworks)
      fun _ => by omega
    exact hscore.skip fun h => by omega
  · rename_i hother
    have hnone : BestOf [⟨80 ≤ homeSimilarity o n, ⟨homeSimilarity o n, .workingDir⟩⟩] none :=
      bestOf_nil.skip hother
    refine hnone.consider (homeSimilarity o n) .directoryProximity ?_ fun h => by omega
    rw [Bool.and_eq_true, decide_eq_true_eq]
    exact and_congr_right fun _ => (and_iff_right (not_le.mp hother)).symm

theorem isWeak_directoryScore_iff :
    isWeak (directoryScore (homeSimilarity o n) options) = true ↔ ¬ HasDirectoryScore o n options := by
  unfold directoryScore HasDirectoryScore
  split
  · rename_i hworks
    have hpos : 0 < homeSimilarity o n := by omega
    simp [considered, hpos, isWeak, hworks]
    omega
  split
  · rename_i hworks hnear
    rw [Bool.and_eq_true, decide_eq_true_eq] at hnear
    have hpos : 0 < homeSimilarity o n := by omega
    simp [considered, hpos, isWeak, hnear]
  · rename_i hworks hnear
    rw [Bool.and_eq_true, decide_eq_true_eq] at hnear
    simp [isWeak, hworks, hnear]

/-- The rules of the directory, of near files and of the output give their best score. -/
theorem bestOf_moduleRules {named : Bool} (hnamed : named = true ↔ NamesOutput o n) :
    BestOf (moduleRules job o n options) (moduleBest job o n options named) := by
  have hnear : BestOf _ (consideringNearness 60 job n (directoryScore (homeSimilarity o n) options)) :=
    bestOf_directory.consider 60 .directoryProximity
      (Bool.and_eq_true_iff.trans (and_congr_left' isWeak_directoryScore_iff)) fun _ => by decide
  refine (hnear.consider 90 .outputReference hnamed fun _ => by decide).congr fun r => ?_
  simp only [moduleRules, IsNear, List.mem_cons, List.not_mem_nil, or_false]
  grind

/-- The rules for Terraform rank. -/
theorem ranks_terraform (h : BestOf (moduleRules job o n options) best) :
    Ranks (terraformRules job o n options) (consideringNames job o n options best) := by
  refine Ranks.after h (fun s hs => ?_) (.single bestOf_names)
  have hfifty := strong_of_bestOf h moduleRules_strong s hs
  rw [Option.mem_def.mp hs, consideringNames_of_strong hfifty]

/-- A directory that reaches what an output is worth is kept. -/
theorem directory_kept (h : 90 ≤ homeSimilarity o n) (named : Bool) :
    consideringNames job o n options (moduleBest job o n options named) =
      some ⟨homeSimilarity o n, .workingDir⟩ := by
  have hworks : 80 ≤ homeSimilarity o n := by omega
  have hpos : 0 < homeSimilarity o n := by omega
  have hdirectory : directoryScore (homeSimilarity o n) options = some ⟨homeSimilarity o n, .workingDir⟩ := by
    unfold directoryScore considered
    simp only [if_pos hworks, if_pos hpos]
  have houtput : consideredIf (some ⟨homeSimilarity o n, .workingDir⟩) named 90 .outputReference =
      some ⟨homeSimilarity o n, .workingDir⟩ := by
    unfold consideredIf considered
    simp only [if_neg (not_lt.mpr h), ite_self]
  have hfifty : 50 ≤ homeSimilarity o n := by omega
  rw [moduleBest, hdirectory, consideringNearness_of_strong 60 hfifty, houtput, consideringNames_of_strong hfifty]

end

/-! ## One best score -/

section

variable {job : JobNode} {o : Operation} {n : InfraNode} {options : LinkerOptions} {s t : LinkScore}
  {rules : List MatchRule} {best : Option LinkScore}

theorem Highest.confidence_eq (hs : Highest rules s) (ht : Highest rules t) : s.confidence = t.confidence := by
  obtain ⟨⟨r, hr, happlies, rfl⟩, hmax⟩ := hs
  obtain ⟨⟨r', hr', happlies', rfl⟩, hmax'⟩ := ht
  exact le_antisymm (hmax' r hr happlies) (hmax r' hr' happlies')

/-- Of rules with different scores only one gives the highest. -/
theorem Highest.unique (hs : Highest rules s) (ht : Highest rules t)
    (hapart : (rules.map (·.score.confidence)).Nodup) : s = t := by
  have heq := hs.confidence_eq ht
  obtain ⟨⟨r, hr, -, rfl⟩, -⟩ := hs
  obtain ⟨⟨r', hr', -, rfl⟩, -⟩ := ht
  rw [List.inj_on_of_nodup_map hapart hr hr' heq]

theorem helmRules_apart : ∀ tier ∈ helmRules job o n options, (tier.map (·.score.confidence)).Nodup := by
  simp [helmRules, weakRules, chartRules]

/-- What the best score of Terraform's rules has besides: an output does not displace a directory that is
worth as much. -/
def KeepsDirectory (o : Operation) (n : InfraNode) (s : LinkScore) : Prop :=
  s.reason = .outputReference → homeSimilarity o n < 90

theorem moduleRules_unique (hs : Highest (moduleRules job o n options) s)
    (ht : Highest (moduleRules job o n options) t) (hkeeps : KeepsDirectory o n s)
    (hkeeps' : KeepsDirectory o n t) : s = t := by
  have heq := hs.confidence_eq ht
  obtain ⟨⟨r, hr, happlies, rfl⟩, -⟩ := hs
  obtain ⟨⟨r', hr', happlies', rfl⟩, -⟩ := ht
  simp only [moduleRules, List.mem_cons, List.not_mem_nil, or_false] at hr hr'
  rcases hr with rfl | rfl | rfl | rfl <;> rcases hr' with rfl | rfl | rfl | rfl <;>
    grind [HasDirectoryScore, KeepsDirectory]

theorem confidence_eq_zero_iff (h : ∀ s ∈ best, 0 < s.confidence) :
    best.map (·.reason) = none ↔ confidenceOf best = 0 := by
  cases best with
  | none => simp [confidenceOf]
  | some s =>
      have hpos := h s rfl
      simp only [confidenceOf, Option.elim_some, Option.map_some, reduceCtorEq, false_iff]
      omega

theorem helmRules_pos : ∀ tier ∈ helmRules job o n options, ∀ r ∈ tier, r.Applies → 0 < r.score.confidence := by
  simp [helmRules, weakRules, chartRules, nameRule]
  exact nameRule_pos

theorem terraformRules_pos :
    ∀ tier ∈ terraformRules job o n options, ∀ r ∈ tier, r.Applies → 0 < r.score.confidence := by
  intro tier htier r hr happlies
  simp only [terraformRules, List.mem_cons, List.not_mem_nil, or_false] at htier
  rcases htier with rfl | rfl
  · have hfifty := moduleRules_strong r hr happlies
    omega
  · obtain rfl := List.mem_singleton.mp hr
    exact nameRule_pos happlies

end

section

variable {n : InfraNode}

theorem helmScore_eq_ok_iff (hn : n.HasTextFacts) (job : JobNode) (o : Operation) (options : LinkerOptions)
    (best : Option LinkScore) :
    helmScore job o n options = .ok best ↔ Ranks (helmRules job o n options) best := by
  rcases helmScore_cases job o n with ⟨fault, hfault⟩ | ⟨strong, hstrong, heq⟩
  · obtain ⟨best, hbest, -⟩ := helmScore_onScale hn job o options
    rw [hfault options] at hbest
    cases hbest
  · have hranks : Ranks (helmRules job o n options) _ := ranks_helm hstrong
    rw [heq options, Except.ok.injEq]
    constructor
    · rintro rfl
      exact hranks
    · intro hbest
      exact hranks.unique (P := fun _ => True)
        (fun tier htier s t hs ht _ _ => hs.unique ht (helmRules_apart tier htier)) hbest
        (fun _ _ => trivial) fun _ _ => trivial

theorem terraformScore_eq_ok_iff (hn : n.HasTextFacts) (job : JobNode) (o : Operation)
    (options : LinkerOptions) (best : Option LinkScore) :
    terraformScore job o n options = .ok best ↔
      Ranks (terraformRules job o n options) best ∧ ∀ s ∈ best, KeepsDirectory o n s := by
  rcases terraformScore_cases job o n with ⟨fault, hfault⟩ | ⟨named, hnamed, heq⟩
  · obtain ⟨best, hbest, -⟩ := terraformScore_onScale hn job o options
    rw [hfault options] at hbest
    cases hbest
  · have hranks : Ranks (terraformRules job o n options) _ := ranks_terraform (bestOf_moduleRules hnamed)
    have hkeeps : ∀ s ∈ consideringNames job o n options (moduleBest job o n options named),
        KeepsDirectory o n s := by
      intro s hs hreason
      by_contra hlarge
      rw [directory_kept (not_lt.mp hlarge)] at hs
      obtain rfl := Option.some.inj hs
      cases hreason
    rw [heq options, Except.ok.injEq]
    constructor
    · rintro rfl
      exact ⟨hranks, hkeeps⟩
    · rintro ⟨hbest, hbestKeeps⟩
      refine hranks.unique (P := KeepsDirectory o n) (fun tier htier s t hs ht => ?_) hbest hkeeps hbestKeeps
      simp only [terraformRules, List.mem_cons, List.not_mem_nil, or_false] at htier
      rcases htier with rfl | rfl
      · exact moduleRules_unique hs ht
      · exact fun _ _ => hs.unique ht (List.nodup_singleton _)

end

/-- The score of a node with texts as facts is what its rules rank first, in whatever order they are asked.
For Terraform an output that gives as much as a directory does not count.  There is a reason exactly
when the confidence is not zero. -/
theorem scores_ranked {n : InfraNode} (hn : n.HasTextFacts) (job : JobNode) (o : Operation)
    (options : LinkerOptions) :
    (∃ best, helmScore job o n options = .ok best) ∧
      (∀ best, helmScore job o n options = .ok best ↔ Ranks (helmRules job o n options) best) ∧
      (∃ best, terraformScore job o n options = .ok best) ∧
      (∀ best, terraformScore job o n options = .ok best ↔
        Ranks (terraformRules job o n options) best ∧ ∀ s ∈ best, KeepsDirectory o n s) ∧
      ∀ best, helmScore job o n options = .ok best ∨ terraformScore job o n options = .ok best →
        (best.map (·.reason) = none ↔ confidenceOf best = 0) := by
  have hhelm := helmScore_eq_ok_iff hn job o options
  have hterraform := terraformScore_eq_ok_iff hn job o options
  obtain ⟨helm, hhelmOk, -⟩ := helmScore_onScale hn job o options
  obtain ⟨terraform, hterraformOk, -⟩ := terraformScore_onScale hn job o options
  refine ⟨⟨helm, hhelmOk⟩, hhelm, ⟨terraform, hterraformOk⟩, hterraform, fun best hbest => ?_⟩
  rcases hbest with hbest | hbest
  · exact confidence_eq_zero_iff (((hhelm best).mp hbest).confidence_pos helmRules_pos)
  · exact confidence_eq_zero_iff (((hterraform best).mp hbest).1.confidence_pos terraformRules_pos)

/-! ### A directory and an output of equal worth -/

/-- A job of a workflow in a file. -/
def deployIn (file : String) : JobNode where
  id := "job"
  name := "deploy"
  filePath := file
  scanId := "scan"
  pipelineId := "pipeline"
  jobName := "deploy"

/-- A call that names the output `vpc`, nine directories down beside its module. -/
def besideModule : Operation where
  kind := .terraform
  command := "output"
  stepIndex := 0
  text := "terraform output vpc"
  workingDir := some "a/b/c/d/e/f/g/h/i/x"
  outputs := ["vpc"]

/-- The output, whose module is ten directories down. -/
def deepOutput : InfraNode where
  id := "output"
  kind := .terraformOutput
  name := "vpc"
  filePath := "outputs.tf"
  facts := [(.text "modulePath", .text "a/b/c/d/e/f/g/h/i/j")]

/-- The directory and the output both give 90, and the reason is the directory. -/
theorem scores_ranked_tie : deepOutput.HasTextFacts ∧ homeSimilarity besideModule deepOutput = 90 ∧
    NamesOutput besideModule deepOutput ∧
    terraformScore (deployIn "ci.yml") besideModule deepOutput {} = .ok (some ⟨90, .workingDir⟩) ∧
    Ranks (terraformRules (deployIn "ci.yml") besideModule deepOutput {}) (some ⟨90, .workingDir⟩) := by
  have hfacts : deepOutput.HasTextFacts := by
    intro entry hentry
    obtain rfl := List.mem_singleton.mp hentry
    exact ⟨_, rfl⟩
  have hscore : terraformScore (deployIn "ci.yml") besideModule deepOutput {} = .ok (some ⟨90, .workingDir⟩) := by
    decide +kernel
  have hranked := ((scores_ranked hfacts (deployIn "ci.yml") besideModule {}).2.2.2.1 _).mp hscore
  exact ⟨hfacts, by decide +kernel, ⟨rfl, "vpc", List.mem_singleton_self _, by decide +kernel⟩, hscore,
    hranked.1⟩

end DeployTrace
