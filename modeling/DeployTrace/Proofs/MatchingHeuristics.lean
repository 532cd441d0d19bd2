/-
  DeployTrace/Proofs/MatchingHeuristics.lean --- what the heuristics for matching do to scores.

  WHAT THIS FILE IS FOR.  Two heuristics can be turned on or off: whether directories that are merely alike
  count, and whether alike names do.  One would think that more ways to match never make a match weaker.
  For alike names this holds, since they are asked for last; and for Helm fuzzy paths are not asked for at
  all.  For Terraform fuzzy paths come before the weak rules, and a directory that gives fifty keeps these
  from being asked:

      infra/network, infra/db     50 as directories that are half alike, 60 as near files.

  This is the only way in which a heuristic lowers a score (`heuristics_harmless`).  The score is at least
  fifty even then, so that no match is lost unless the least confidence is above that.
-/
import DeployTrace.Link.Edge
import DeployTrace.Proofs.MatchRules

set_option autoImplicit false

namespace DeployTrace

/-! ## Heuristics -/

/-- A way to match that can be turned on. -/
inductive Heuristic where
  /-- directories that are merely alike count -/
  | fuzzyPaths
  /-- alike names count -/
  | alikeNames
  deriving DecidableEq, Repr

/-- Options with a heuristic turned on or off. -/
def LinkerOptions.turned (options : LinkerOptions) (h : Heuristic) (on : Bool) : LinkerOptions :=
  match h with
  | .fuzzyPaths => { options with fuzzyPaths := .bool on }
  | .alikeNames => { options with nameSimilarity := .bool on }

/-- Turning a heuristic on does no harm: scoring fails as before or gives at least the same confidence, and
what has matched still does. -/
structure Harmless (scorer : Scorer) (h : Heuristic) (options : LinkerOptions) (job : JobNode) (o : Operation)
    (n : InfraNode) : Prop where
  notLower : (∃ fault, ∀ on, scorer job o n (options.turned h on) = .error fault) ∨
    ∃ low high, scorer job o n (options.turned h false) = .ok low ∧
      scorer job o n (options.turned h true) = .ok high ∧ confidenceOf low ≤ confidenceOf high
  keeps : ∀ m, matchOf scorer (options.turned h false) job o n = .ok (some m) →
    ∃ m', matchOf scorer (options.turned h true) job o n = .ok (some m')

/-- The directory of an operation is half alike with the node's, a weak rule would give more, and the
operation does not name the node. -/
structure OvertakesWeak (options : LinkerOptions) (job : JobNode) (o : Operation) (n : InfraNode) : Prop where
  alike : 50 ≤ homeSimilarity o n ∧ homeSimilarity o n < 80
  unnamed : ¬ NamesOutput o n
  weaker : ∃ weak, Ranks (weakRules job o n options 60) (some weak) ∧ homeSimilarity o n < weak.confidence

/-! ## Matches -/

section

variable {scorer : Scorer} {options : LinkerOptions} {h : Heuristic} {job : JobNode} {o : Operation}
  {n : InfraNode}

theorem threshold_turned (on : Bool) : (options.turned h on).threshold = options.threshold := by
  cases h <;> rfl

/-- A node matches when it has a score that is not below the least confidence. -/
theorem exists_matchOf_iff : (∃ m, matchOf scorer options job o n = .ok (some m)) ↔
    ∃ s t, scorer job o n options = .ok (some s) ∧ options.threshold = .ok t ∧
      (Number.int s.confidence).lt t = false := by
  unfold matchOf
  cases hscore : scorer job o n options with
  | error fault => simp [bind, Except.bind]
  | ok best =>
  cases best with
  | none => simp [bind, Except.bind, pure, Except.pure]
  | some s =>
  cases hleast : options.threshold with
  | error fault => simp [bind, Except.bind]
  | ok t => cases hbelow : (Number.int s.confidence).lt t <;> simp [bind, Except.bind, pure, Except.pure, hbelow]

/-- What reaches the least confidence reaches it with more, whatever number that is. -/
theorem not_below_of_le {a b : Int} (hab : a ≤ b) {t : Number} (ha : (Number.int a).lt t = false) :
    (Number.int b).lt t = false := by
  rw [← Bool.not_eq_true] at ha ⊢
  refine fun hb => ha ?_
  unfold Number.lt Number.value at hb ⊢
  simp only [Bool.and_eq_true, Bool.or_eq_true, decide_eq_true_eq] at hb ⊢
  have hvalue : (a : Rat) ≤ b := Int.cast_le.mpr hab
  exact ⟨hb.1, hb.2.imp id fun hfinite => ⟨hfinite.1, lt_of_le_of_lt hvalue hfinite.2⟩⟩

/-- A heuristic that fails no scoring and lowers no score is harmless. -/
theorem harmless_of_le {score : Bool → Option LinkScore}
    (hscore : ∀ on, scorer job o n (options.turned h on) = .ok (score on))
    (hpos : ∀ s ∈ score false, 0 < s.confidence) (hle : confidenceOf (score false) ≤ confidenceOf (score true)) :
    Harmless scorer h options job o n := by
  refine ⟨Or.inr ⟨_, _, hscore false, hscore true, hle⟩, fun m hm => ?_⟩
  obtain ⟨low, t, hlow, ht, hreaches⟩ := exists_matchOf_iff.mp ⟨m, hm⟩
  rw [hscore false, Except.ok.injEq] at hlow
  rw [hlow] at hle
  have hlowPos := hpos low hlow
  cases hhigh : score true with
  | none =>
      rw [hhigh] at hle
      exact absurd hlowPos (not_lt.mpr hle)
  | some high =>
      rw [hhigh] at hle
      refine exists_matchOf_iff.mpr ⟨high, t, ?_, ?_, not_below_of_le hle hreaches⟩
      · rw [hscore true, hhigh]
      · rw [threshold_turned] at ht ⊢
        exact ht

theorem harmless_of_fault {fault : LinkFault} (hfault : ∀ options, scorer job o n options = .error fault) :
    Harmless scorer h options job o n := by
  refine ⟨Or.inl ⟨fault, fun on => hfault _⟩, fun m hm => ?_⟩
  obtain ⟨s, t, hs, -⟩ := exists_matchOf_iff.mp ⟨m, hm⟩
  rw [hfault] at hs
  cases hs

end

/-! ## Scores with a heuristic on and off -/

section

variable {job : JobNode} {o : Operation} {n : InfraNode} {options : LinkerOptions} {best : Option LinkScore}

theorem confidenceOf_le_considered (best : Option LinkScore) (s : LinkScore) :
    confidenceOf best ≤ confidenceOf (considered best s) := by
  unfold considered confidenceOf
  cases best with
  | none =>
      simp only
      split
      · rename_i hpos
        exact hpos.le
      · exact le_rfl
  | some b =>
      simp only
      split
      · rename_i hlt
        exact hlt.le
      · exact le_rfl

/-- Asking for alike names lowers no score. -/
theorem confidenceOf_le_names (best : Option LinkScore) :
    confidenceOf best ≤ confidenceOf (consideringNames job o n options best) := by
  unfold consideringNames consideredIf
  split
  · simp only
    split
    · exact confidenceOf_le_considered _ _
    · exact le_rfl
  · exact le_rfl

theorem consideringNames_fuzzy (on : Bool) :
    consideringNames job o n (options.turned .fuzzyPaths on) best = consideringNames job o n options best :=
  rfl

theorem consideringNames_off : consideringNames job o n (options.turned .alikeNames false) best = best := by
  have hoff : (options.turned .alikeNames false).nameSimilarity.isTruthy = false := rfl
  unfold consideringNames
  rw [hoff, Bool.and_false]
  rfl

/-- For Helm both heuristics are harmless. -/
theorem harmless_helm (h : Heuristic) : Harmless helmScore h options job o n := by
  rcases helmScore_cases job o n with ⟨fault, hfault⟩ | ⟨best, hbest, hscore⟩
  · exact harmless_of_fault hfault
  · refine harmless_of_le (fun on => hscore (options.turned h on)) ?_ ?_
    · exact (ranks_helm hbest).confidence_pos helmRules_pos
    · cases h with
      | fuzzyPaths => exact le_rfl
      | alikeNames =>
          rw [consideringNames_off]
          exact confidenceOf_le_names _

/-- Outside the range of directories that are merely alike, fuzzy paths change nothing. -/
theorem directoryScore_turned {similarity : Int} (h : ¬ (50 ≤ similarity ∧ similarity < 80)) (on : Bool) :
    directoryScore similarity (options.turned .fuzzyPaths on) = directoryScore similarity options := by
  unfold directoryScore
  split
  · rfl
  · rename_i hworks
    have hnear : ¬ 50 ≤ similarity := fun hfifty => h ⟨hfifty, not_le.mp hworks⟩
    simp [hnear]

theorem directoryScore_fuzzy {similarity : Int} (h : 50 ≤ similarity ∧ similarity < 80) (on : Bool) :
    directoryScore similarity (options.turned .fuzzyPaths on) =
      if on then some ⟨similarity, .directoryProximity⟩ else none := by
  have hpos : 0 < similarity := by omega
  have hon : (options.turned .fuzzyPaths on).fuzzyPaths.isTruthy = on := rfl
  unfold directoryScore considered
  rw [if_neg (not_le.mpr h.2), hon]
  cases on <;> simp [h.1, hpos]

/-- A named output displaces directories that are merely alike. -/
theorem named_over {reason : MatchReason} {similarity : Int} (h : similarity < 80) :
    consideredIf (some ⟨similarity, reason⟩) true 90 .outputReference = some ⟨90, .outputReference⟩ := by
  have hless : similarity < 90 := by omega
  unfold consideredIf considered
  simp only [if_pos hless, if_true]

/-- A named output displaces near files. -/
theorem named_over_nearness :
    consideredIf (consideringNearness 60 job n none) true 90 .outputReference = some ⟨90, .outputReference⟩ := by
  have hnone : isWeak none = true := rfl
  unfold consideringNearness
  simp only [hnone, Bool.true_and]
  cases pathsRelated (plainDirectory job.filePath) (plainDirectory n.filePath) <;> rfl

/-- Directories that are merely alike, counted: they are kept unless the operation names the node. -/
theorem fuzzy_on (h : 50 ≤ homeSimilarity o n ∧ homeSimilarity o n < 80) (named : Bool) :
    consideringNames job o n (options.turned .fuzzyPaths true)
        (moduleBest job o n (options.turned .fuzzyPaths true) named) =
      if named then some ⟨90, .outputReference⟩ else some ⟨homeSimilarity o n, .directoryProximity⟩ := by
  rw [moduleBest, directoryScore_fuzzy h, if_pos rfl, consideringNearness_of_strong 60 h.1]
  cases named with
  | false => exact consideringNames_of_strong h.1
  | true =>
      rw [named_over h.2]
      exact consideringNames_of_strong (by decide)

/-- Directories that are merely alike, not counted: the weak rules are asked unless the operation names the
node. -/
theorem fuzzy_off (h : 50 ≤ homeSimilarity o n ∧ homeSimilarity o n < 80) (named : Bool) :
    consideringNames job o n (options.turned .fuzzyPaths false)
        (moduleBest job o n (options.turned .fuzzyPaths false) named) =
      if named then some ⟨90, .outputReference⟩
      else consideringNames job o n options (consideringNearness 60 job n none) := by
  rw [consideringNames_fuzzy, moduleBest, directoryScore_fuzzy h, if_neg Bool.false_ne_true]
  cases named with
  | false =>
      simp only [consideredIf, Bool.false_eq_true, if_false]
  | true =>
      rw [named_over_nearness]
      exact consideringNames_of_strong (by decide)

/-- The weak rules have one best score. -/
theorem weak_unique {near : Int} {other : Option LinkScore} (h : Ranks (weakRules job o n options near) best)
    (h' : Ranks (weakRules job o n options near) other) : best = other := by
  refine h.unique (P := fun _ => True) (fun tier htier s t hs ht _ _ => hs.unique ht ?_) h'
    (fun _ _ => trivial) fun _ _ => trivial
  simp only [weakRules, List.mem_cons, List.not_mem_nil, or_false] at htier
  rcases htier with rfl | rfl <;> exact List.nodup_singleton _

/-- A weak rule gives seventy at most, if near files do. -/
theorem weak_le {near : Int} (hnear : near ≤ 70) {s : LinkScore}
    (h : Ranks (weakRules job o n options near) (some s)) : s.confidence ≤ 70 := by
  rcases h with ⟨t, ⟨⟨r, hr, -, rfl⟩, -⟩, hs⟩ | ⟨-, ⟨t, ⟨⟨r, hr, happlies, rfl⟩, -⟩, hs⟩ | ⟨-, hnone⟩⟩
  · obtain rfl := List.mem_singleton.mp hr
    obtain rfl := Option.some.inj hs
    exact hnear
  · obtain rfl := List.mem_singleton.mp hr
    obtain rfl := Option.some.inj hs
    exact (nameScore_bounds happlies.2 (isScore_bestNameSimilarity job o n)).2
  · cases hnone

/-- Where directories are merely alike, fuzzy paths are harmless unless they overtake a weak rule. -/
theorem harmless_of_alike (halike : 50 ≤ homeSimilarity o n ∧ homeSimilarity o n < 80) {named : Bool}
    (hnamed : named = true ↔ NamesOutput o n)
    (hharmless : confidenceOf (consideringNames job o n (options.turned .fuzzyPaths false)
        (moduleBest job o n (options.turned .fuzzyPaths false) named)) ≤
      confidenceOf (consideringNames job o n (options.turned .fuzzyPaths true)
        (moduleBest job o n (options.turned .fuzzyPaths true) named)) →
      Harmless terraformScore .fuzzyPaths options job o n) :
    Harmless terraformScore .fuzzyPaths options job o n ∨ OvertakesWeak options job o n := by
  rw [fuzzy_on halike, fuzzy_off halike] at hharmless
  cases named with
  | true =>
      rw [if_pos rfl, if_pos rfl] at hharmless
      exact Or.inl (hharmless le_rfl)
  | false =>
      rw [if_neg Bool.false_ne_true, if_neg Bool.false_ne_true] at hharmless
      have hranks : Ranks _ (consideringNames job o n options (consideringNearness 60 job n none)) :=
        ranks_weak (by decide)
      cases hweak : consideringNames job o n options (consideringNearness 60 job n none) with
      | none =>
          have hpositive : 0 ≤ homeSimilarity o n := by omega
          rw [hweak] at hharmless
          exact Or.inl (hharmless hpositive)
      | some weak =>
          rw [hweak] at hharmless hranks
          by_cases hless : homeSimilarity o n < weak.confidence
          · have hunnamed : ¬ NamesOutput o n := fun hnames => Bool.false_ne_true (hnamed.mpr hnames)
            exact Or.inr ⟨halike, hunnamed, weak, hranks, hless⟩
          · exact Or.inl (hharmless (not_lt.mp hless))

/-- For Terraform a heuristic is harmless, unless it is fuzzy paths and overtakes a weak rule. -/
theorem harmless_terraform (h : Heuristic) : Harmless terraformScore h options job o n ∨
    (h = .fuzzyPaths ∧ OvertakesWeak options job o n) := by
  rcases terraformScore_cases job o n with ⟨fault, hfault⟩ | ⟨named, hnamed, hscore⟩
  · exact Or.inl (harmless_of_fault hfault)
  have hbest : BestOf (moduleRules job o n (options.turned h false)) _ := bestOf_moduleRules hnamed
  have hharmless := harmless_of_le (fun on => hscore (options.turned h on))
    ((ranks_terraform hbest).confidence_pos terraformRules_pos)
  cases h with
  | alikeNames =>
      rw [consideringNames_off] at hharmless
      exact Or.inl (hharmless (confidenceOf_le_names _))
  | fuzzyPaths =>
      by_cases halike : 50 ≤ homeSimilarity o n ∧ homeSimilarity o n < 80
      · exact (harmless_of_alike halike hnamed hharmless).imp_right fun hovertakes => ⟨rfl, hovertakes⟩
      · have hsame : moduleBest job o n (options.turned .fuzzyPaths false) named =
            moduleBest job o n (options.turned .fuzzyPaths true) named := by
          rw [moduleBest, moduleBest, directoryScore_turned halike, directoryScore_turned halike]
        rw [hsame] at hharmless
        exact Or.inl (hharmless le_rfl)

/-- Where fuzzy paths overtake a weak rule and scoring does not fail, they lower the score: the likeness of
the directory stands in for at most seventy.  The node is lost exactly when that is below the least
confidence. -/
theorem lowered_of_overtakes (h : OvertakesWeak options job o n) {low high : Option LinkScore}
    (hlow : terraformScore job o n (options.turned .fuzzyPaths false) = .ok low)
    (hhigh : terraformScore job o n (options.turned .fuzzyPaths true) = .ok high) :
    high = some ⟨homeSimilarity o n, .directoryProximity⟩ ∧ confidenceOf high < confidenceOf low ∧
      confidenceOf low ≤ 70 ∧ ∀ t, options.threshold = .ok t →
        ((∃ m, matchOf terraformScore (options.turned .fuzzyPaths true) job o n = .ok (some m)) ↔
          (Number.int (homeSimilarity o n)).lt t = false) := by
  obtain ⟨halike, hunnamed, weak, hweak, hless⟩ := h
  rcases terraformScore_cases job o n with ⟨fault, hfault⟩ | ⟨named, hnamed, hscore⟩
  · rw [hfault] at hlow
    cases hlow
  obtain rfl : named = false := Bool.eq_false_iff.mpr fun hname => hunnamed (hnamed.mp hname)
  rw [hscore, fuzzy_off halike, Except.ok.injEq, if_neg Bool.false_ne_true] at hlow
  rw [hscore, fuzzy_on halike, Except.ok.injEq, if_neg Bool.false_ne_true] at hhigh
  obtain rfl : low = some weak := hlow ▸ weak_unique (ranks_weak (by decide)) hweak
  obtain rfl := hhigh
  refine ⟨rfl, hless, weak_le (by decide) hweak, fun t ht => ?_⟩
  rw [exists_matchOf_iff, hscore, fuzzy_on halike, if_neg Bool.false_ne_true, threshold_turned, ht]
  constructor
  · rintro ⟨s, t', hs, ht', hreaches⟩
    cases hs
    cases ht'
    exact hreaches
  · exact fun hreaches => ⟨_, t, rfl, rfl, hreaches⟩

end

/-! ## Harmless heuristics -/

/-- Neither heuristic lowers a score or loses a match, but for one case: a directory that is merely alike
overtakes a weak rule that would give more.  The likeness then is the score, and the node is lost exactly
when the likeness is below the least confidence. -/
theorem heuristics_harmless (options : LinkerOptions) (job : JobNode) (o : Operation) (n : InfraNode) :
    (∀ h, Harmless helmScore h options job o n) ∧
      (∀ h, Harmless terraformScore h options job o n ∨ (h = .fuzzyPaths ∧ OvertakesWeak options job o n)) ∧
      (OvertakesWeak options job o n → ∀ low high,
        terraformScore job o n (options.turned .fuzzyPaths false) = .ok low →
        terraformScore job o n (options.turned .fuzzyPaths true) = .ok high →
        high = some ⟨homeSimilarity o n, .directoryProximity⟩ ∧ confidenceOf high < confidenceOf low ∧
          confidenceOf low ≤ 70 ∧ ∀ t, options.threshold = .ok t →
            ((∃ m, matchOf terraformScore (options.turned .fuzzyPaths true) job o n = .ok (some m)) ↔
              (Number.int (homeSimilarity o n)).lt t = false)) := by
  refine ⟨harmless_helm, harmless_terraform, fun hovertakes low high hlow hhigh => ?_⟩
  exact lowered_of_overtakes hovertakes hlow hhigh

/-! ### Near files and directories that are half alike -/

/-- A call beside a module. -/
def besideNetwork : Operation where
  kind := .terraform
  command := "apply"
  stepIndex := 0
  text := "terraform apply"
  workingDir := some "infra/network"

/-- A module next to that of the call. -/
def databaseModule : InfraNode where
  id := "module"
  kind := .terraformModule
  name := "db"
  filePath := "infra/db/main.tf"
  facts := [(.text "modulePath", .text "infra/db")]

/-- The files of a job and of a module are near, which gives 60, and the directories are half alike. -/
theorem overtakesWeak_networks : OvertakesWeak {} (deployIn "infra/ci.yml") besideNetwork databaseModule where
  alike := by decide +kernel
  unnamed := fun h => by cases h.1
  weaker := by
    have hnear : IsNear (deployIn "infra/ci.yml") databaseModule := by
      unfold IsNear
      decide +kernel
    refine ⟨⟨60, .directoryProximity⟩, Or.inl ⟨_, ⟨⟨_, List.mem_singleton_self _, hnear, rfl⟩, ?_⟩, rfl⟩, ?_⟩
    · exact fun r hr _ => by rw [List.mem_singleton.mp hr]
    · decide +kernel

theorem networks_without : terraformScore (deployIn "infra/ci.yml") besideNetwork databaseModule
    (LinkerOptions.turned {} .fuzzyPaths false) = .ok (some ⟨60, .directoryProximity⟩) := by
  decide +kernel

theorem networks_fuzzy : terraformScore (deployIn "infra/ci.yml") besideNetwork databaseModule
    (LinkerOptions.turned {} .fuzzyPaths true) = .ok (some ⟨50, .directoryProximity⟩) := by
  decide +kernel

/-- Fuzzy paths take that module from 60 to 50, and it still matches when fifty is enough. -/
theorem heuristics_harmless_networks :
    OvertakesWeak {} (deployIn "infra/ci.yml") besideNetwork databaseModule ∧
      (∀ h, Harmless helmScore h {} (deployIn "infra/ci.yml") besideNetwork databaseModule) ∧
      (∃ low high, terraformScore (deployIn "infra/ci.yml") besideNetwork databaseModule
          (LinkerOptions.turned {} .fuzzyPaths false) = .ok low ∧
        terraformScore (deployIn "infra/ci.yml") besideNetwork databaseModule
          (LinkerOptions.turned {} .fuzzyPaths true) = .ok high ∧ confidenceOf high < confidenceOf low) ∧
      ∃ m, matchOf terraformScore (LinkerOptions.turned {} .fuzzyPaths true) (deployIn "infra/ci.yml")
        besideNetwork databaseModule = .ok (some m) := by
  obtain ⟨hhelm, -, hovertaken⟩ := heuristics_harmless {} (deployIn "infra/ci.yml") besideNetwork databaseModule
  obtain ⟨-, hless, -, hmatches⟩ := hovertaken overtakesWeak_networks _ _ networks_without networks_fuzzy
  have hreaches : (Number.int (homeSimilarity besideNetwork databaseModule)).lt (.int 50) = false := by
    decide +kernel
  exact ⟨overtakesWeak_networks, hhelm, ⟨_, _, networks_without, networks_fuzzy, hless⟩,
    (hmatches (.int 50) rfl).mpr hreaches⟩

/-- More ways to match can give less. -/
theorem fuzzyPaths_not_monotone : ¬ ∀ (options : LinkerOptions) (job : JobNode) (o : Operation) (n : InfraNode),
    ∀ low high, terraformScore job o n (options.turned .fuzzyPaths false) = .ok low →
      terraformScore job o n (options.turned .fuzzyPaths true) = .ok high →
      confidenceOf low ≤ confidenceOf high := by
  intro hmonotone
  have hless := hmonotone {} (deployIn "infra/ci.yml") besideNetwork databaseModule _ _
    networks_without networks_fuzzy
  exact absurd hless (by decide)

end DeployTrace
