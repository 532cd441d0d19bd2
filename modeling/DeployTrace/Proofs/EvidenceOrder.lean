/-
  DeployTrace/Proofs/EvidenceOrder.lean --- what a score owes to the order of the evidence.

  WHAT THIS FILE IS FOR.  A score is made of sums, of questions whether some item is of a kind, and of
  counts; none of these depends on the order in which the items stand.  The exception is the search for
  marks of tools that reshape a value: it looks at all snippets put together with a blank between them,
  and the marks of four tools are their name and a blank.  A snippet that ends with such a name shows the
  mark when another snippet comes after it, and does not when it is the last one.

  So the order counts exactly through the tools whose mark stands in no snippet and comes about at a SEAM.
-/
import DeployTrace.Proofs.ExactScores
import Mathlib.Data.List.Basic

set_option autoImplicit false

namespace DeployTrace

open Text

/-! ## A mark in texts that are put together -/

/-- A part of two texts around a character is in one of them or holds that character. -/
theorem infix_append_cons_iff {part a b : Chars} {c : Char} : part <:+: a ++ c :: b ↔
    part <:+: a ∨ part <:+: b ∨ ∃ front back, part = front ++ c :: back ∧ front <:+ a ∧ back <+: b := by
  constructor
  · intro h
    rcases List.infix_append_iff.mp h with ha | hb | ⟨front, back, rfl, hfront, hback⟩
    · exact Or.inl ha
    · rcases List.infix_cons_iff.mp hb with hprefix | hb
      · rcases List.prefix_cons_iff.mp hprefix with rfl | ⟨back, rfl, hback⟩
        · exact Or.inl List.nil_infix
        · exact Or.inr (Or.inr ⟨[], back, rfl, List.nil_suffix, hback⟩)
      · exact Or.inr (Or.inl hb)
    · rcases List.prefix_cons_iff.mp hback with rfl | ⟨rest, rfl, hrest⟩
      · rw [List.append_nil]
        exact Or.inl hfront.isInfix
      · exact Or.inr (Or.inr ⟨front, rest, rfl, hfront, hrest⟩)
  · rintro (ha | hb | ⟨front, back, rfl, hfront, hback⟩)
    · exact List.infix_append_of_infix_left ha
    · exact List.infix_append_of_infix_right (hb.trans (List.suffix_cons c b).isInfix)
    · refine List.infix_append_iff.mpr (Or.inr (Or.inr ⟨front, c :: back, rfl, hfront, ?_⟩))
      exact (List.prefix_cons_inj c).mpr hback

/-- Whether one of the texts ends with `tail` and another one comes after it. -/
def endsBeforeAnother (tail : String) : List String → Bool
  | first :: next :: rest => endsWith first tail || endsBeforeAnother tail (next :: rest)
  | _ => false

section Seams

variable {tool : String} (htool : ' ' ∉ tool.toList)

theorem toList_intercalate_blank (first next : String) (rest : List String) :
    (" ".intercalate (first :: next :: rest)).toList =
      first.toList ++ ' ' :: (" ".intercalate (next :: rest)).toList := by
  simp [String.intercalate_cons_cons]

include htool in
/-- A mark without a blank comes about at no seam. -/
theorem contains_intercalate_of_oneWord (hne : tool ≠ "") (texts : List String) :
    contains (" ".intercalate texts) tool = texts.any (contains · tool) := by
  have hnil : tool.toList ≠ [] := by simpa using hne
  rw [Bool.eq_iff_iff]
  simp only [List.any_eq_true, contains, hasPart_iff]
  induction texts with
  | nil => simp [hnil]
  | cons first rest ih =>
      cases rest with
      | nil => simp
      | cons next rest =>
          rw [toList_intercalate_blank, infix_append_cons_iff, ih]
          have hseam : ¬ ∃ front back, tool.toList = front ++ ' ' :: back ∧
              front <:+ first.toList ∧ back <+: (" ".intercalate (next :: rest)).toList := by
            rintro ⟨front, back, heq, -⟩
            exact htool (heq ▸ List.mem_append_right _ List.mem_cons_self)
          simp only [hseam, or_false, List.exists_mem_cons_iff]

include htool in
/-- A name with a blank after it comes about at a seam where a text ends with the name. -/
theorem contains_intercalate_of_named (texts : List String) :
    contains (" ".intercalate texts) (tool ++ " ") =
      (texts.any (contains · (tool ++ " ")) || endsBeforeAnother tool texts) := by
  have hmark : (tool ++ " ").toList = tool.toList ++ [' '] := by simp
  rw [Bool.eq_iff_iff]
  simp only [Bool.or_eq_true, List.any_eq_true, contains, hasPart_iff, hmark]
  induction texts with
  | nil => simp [endsBeforeAnother]
  | cons first rest ih =>
      cases rest with
      | nil => simp [endsBeforeAnother]
      | cons next rest =>
          rw [toList_intercalate_blank, infix_append_cons_iff, ih]
          have hseam : (∃ front back, tool.toList ++ [' '] = front ++ ' ' :: back ∧
              front <:+ first.toList ∧ back <+: (" ".intercalate (next :: rest)).toList) ↔
                endsWith first tool = true := by
            rw [endsWith, List.isSuffixOf_iff_suffix]
            constructor
            · rintro ⟨front, back, heq, hfront, -⟩
              obtain ⟨hname, -⟩ :=
                (List.append_cons_inj_of_notMem htool List.not_mem_nil).mp heq
              exact hname ▸ hfront
            · exact fun h => ⟨tool.toList, [], rfl, h, List.nil_prefix⟩
          simp only [hseam, List.exists_mem_cons_iff, endsBeforeAnother, Bool.or_eq_true]
          grind

end Seams

/-! ## Marks of tools in the evidence -/

/-- The snippets that are put together. -/
def quotedSnippets (evidence : List Evidence) : List String :=
  (evidence.filterMap (·.snippet)).filter fun s => !s.isEmpty

/-- The tools whose mark is their name and a blank. -/
def namedTools : List String := ["jq", "yq", "sed", "awk"]

/-- The marks that stand in some snippet. -/
def quotedMarks (evidence : List Evidence) : List String :=
  transformMarks.filter fun mark => (quotedSnippets evidence).any (contains · mark)

/-- The tools whose mark stands in no snippet and comes about where two snippets are put together. -/
def seamTools (evidence : List Evidence) : List String :=
  namedTools.filter fun tool => !(quotedSnippets evidence).any (contains · (tool ++ " ")) &&
    endsBeforeAnother tool (quotedSnippets evidence)

/-- A name and a blank stand in the text of the snippets when they stand in one of them or at a seam. -/
theorem contains_snippetText_named {tool : String} (htool : tool ∈ namedTools) (evidence : List Evidence) :
    contains (snippetText evidence) (tool ++ " ") =
      ((quotedSnippets evidence).any (contains · (tool ++ " ")) ||
        endsBeforeAnother tool (quotedSnippets evidence)) := by
  have hblank : ∀ name ∈ namedTools, ' ' ∉ name.toList := by decide
  exact contains_intercalate_of_named (hblank tool htool) _

/-- Every mark in the text of the snippets stands in one of them or belongs to a tool at a seam. -/
theorem length_marks (evidence : List Evidence) :
    (transformMarks.filter (contains (snippetText evidence))).length =
      (quotedMarks evidence).length + (seamTools evidence).length := by
  have hword : contains (snippetText evidence) "envsubst" =
      (quotedSnippets evidence).any (contains · "envsubst") :=
    contains_intercalate_of_oneWord (by decide) (by decide) _
  have hnamed : ∀ tool ∈ namedTools, contains (snippetText evidence) (tool ++ " ") =
      ((quotedSnippets evidence).any (contains · (tool ++ " ")) ||
        endsBeforeAnother tool (quotedSnippets evidence)) :=
    fun tool htool => contains_snippetText_named htool evidence
  simp only [namedTools, List.forall_mem_cons] at hnamed
  obtain ⟨hjq, hyq, hsed, hawk, -⟩ := hnamed
  simp only [String.reduceAppend] at hjq hyq hsed hawk
  -- A tool counts once on either side: for its mark in a snippet or else for the one at a seam.
  have hsplit : ∀ quoted seam : Bool, (if (quoted || seam) = true then 1 else 0) =
      (if quoted = true then 1 else 0) + if (!quoted && seam) = true then 1 else 0 := by decide
  simp only [quotedMarks, seamTools, transformMarks, namedTools, ← List.countP_eq_length_filter,
    List.countP_cons, List.countP_nil, String.reduceAppend, hjq, hyq, hsed, hawk, hword, hsplit]
  omega

/-! ## The penalty -/

variable {strength : Evidence → Rat}

/-- The points for weak evidence that come from each item on its own. -/
def steadyPoints (strength : Evidence → Rat) (pattern : String) (evidence : List Evidence) : Nat :=
  let weak := (evidence.filter fun e => decide (strength e < 50)).length
  (if !evidence.isEmpty && evidence.all (·.kind.isWeak) then 5 else 0)
    + 3 * (quotedMarks evidence).length
    + (if pattern == FlowPattern.inferred.name then 5 else 0)
    + (if !evidence.isEmpty && evidence.length < 2 * weak then 5 else 0)

theorem weakPoints_eq (pattern : String) (evidence : List Evidence) :
    weakPoints strength pattern evidence =
      steadyPoints strength pattern evidence + 3 * (seamTools evidence).length := by
  simp only [weakPoints, steadyPoints, length_marks, Arithmetic.lt_rat, Arithmetic.ofInt_rat,
    Int.cast_ofNat]
  omega

/-! ## Another order -/

section Reordered

variable {evidence other : List Evidence} (h : evidence.Perm other)

include h

theorem quotedSnippets_perm : (quotedSnippets evidence).Perm (quotedSnippets other) :=
  (h.filterMap _).filter _

theorem steadyPoints_perm (pattern : String) :
    steadyPoints strength pattern evidence = steadyPoints strength pattern other := by
  have hempty : evidence.isEmpty = other.isEmpty := h.isEmpty_eq
  have hmarks : quotedMarks evidence = quotedMarks other := by
    unfold quotedMarks
    simp only [(quotedSnippets_perm h).any_eq]
  have hweak := (h.filter fun e => decide (strength e < 50)).length_eq
  simp only [steadyPoints, hempty, h.all_eq, hmarks, hweak, h.length_eq]

theorem explicitPoints_perm : explicitPoints evidence = explicitPoints other := by
  have hkind : hasKind evidence = hasKind other := funext fun kind => h.any_eq
  simp only [explicitPoints, hkind, h.any_eq]

theorem evidenceScore_perm (w : ScoringWeights Rat) :
    evidenceScore w strength evidence = evidenceScore w strength other := by
  have hweight : w.weightOf evidence = w.weightOf other := (h.map _).sum_eq
  have hweighted : w.weighted strength evidence = w.weighted strength other := (h.map _).sum_eq
  rw [evidenceScore_eq, evidenceScore_eq, hweight, hweighted]

/-- Orders with as many tools at seams give the same score in all its parts. -/
theorem breakdown_eq_of_perm (w : ScoringWeights Rat) (pattern : String)
    (hseams : (seamTools evidence).length = (seamTools other).length) :
    breakdown w strength pattern evidence = breakdown w strength pattern other := by
  have hbonus : explicitBonus w evidence = explicitBonus w other := by
    simp only [explicitBonus, explicitPoints_perm h]
  have hpenalty : weaknessPenalty w strength pattern evidence =
      weaknessPenalty w strength pattern other := by
    simp only [weaknessPenalty, weakPoints_eq, steadyPoints_perm h, hseams]
  simp only [breakdown, evidenceScore_perm h, hbonus, hpenalty]

end Reordered

/-- Where no snippet ends with the name of a tool there is no tool at a seam. -/
theorem seamTools_eq_nil {evidence : List Evidence}
    (h : ∀ s ∈ quotedSnippets evidence, ∀ tool ∈ namedTools, endsWith s tool = false) :
    seamTools evidence = [] := by
  have hseam : ∀ (tool : String) (texts : List String), (∀ s ∈ texts, endsWith s tool = false) →
      endsBeforeAnother tool texts = false := by
    intro tool texts htexts
    induction texts with
    | nil => rfl
    | cons first rest ih =>
        obtain ⟨hfirst, hrest⟩ := List.forall_mem_cons.mp htexts
        cases rest with
        | nil => rfl
        | cons next rest => rw [endsBeforeAnother, hfirst, ih hrest, Bool.or_self]
  refine List.filter_eq_nil_iff.mpr fun tool htool => ?_
  rw [hseam tool _ fun s hs => h s hs tool htool, Bool.and_false]
  exact Bool.false_ne_true

/-- In another order the same evidence has the same base, the same mean and the same bonus, and the same
points for each item on its own.  The penalties differ by three points for each tool at a seam before the
limit; so the score is the same in all its parts when as many tools are at seams, and in particular when
no snippet ends with the name of a tool. -/
theorem breakdown_of_reordered {w : ScoringWeights Rat} {strength : Evidence → Rat}
    {evidence other : List Evidence} (h : evidence.Perm other) (pattern : String) :
    let one := breakdown w strength pattern evidence
    let two := breakdown w strength pattern other
    one.patternBase = two.patternBase ∧ one.evidenceScore = two.evidenceScore ∧
      one.explicitBonus = two.explicitBonus ∧
      (∃ steady : Nat,
        one.weaknessPenalty =
          min ((steady + 3 * (seamTools evidence).length : Nat) : Rat) w.maxWeaknessPenalty ∧
        two.weaknessPenalty =
          min ((steady + 3 * (seamTools other).length : Nat) : Rat) w.maxWeaknessPenalty) ∧
      ((seamTools evidence).length = (seamTools other).length → one = two) ∧
      ((∀ s ∈ quotedSnippets evidence, ∀ tool ∈ namedTools, endsWith s tool = false) → one = two) := by
  intro one two
  have hpenalty : ∀ items : List Evidence, (breakdown w strength pattern items).weaknessPenalty =
      min ((steadyPoints strength pattern items + 3 * (seamTools items).length : Nat) : Rat)
        w.maxWeaknessPenalty := by
    intro items
    simp only [breakdown, weaknessPenalty, weakPoints_eq, Arithmetic.least_rat, Arithmetic.ofInt_rat,
      Int.cast_natCast]
  refine ⟨rfl, evidenceScore_perm h w, ?_, ⟨steadyPoints strength pattern evidence, hpenalty evidence, ?_⟩,
    breakdown_eq_of_perm h w pattern, fun hends => ?_⟩
  · simp only [one, two, breakdown, explicitBonus, explicitPoints_perm h]
  · rw [steadyPoints_perm h]
    exact hpenalty other
  · have hother : ∀ s ∈ quotedSnippets other, ∀ tool ∈ namedTools, endsWith s tool = false :=
      fun s hs => hends s ((quotedSnippets_perm h).mem_iff.mpr hs)
    refine breakdown_eq_of_perm h w pattern ?_
    rw [seamTools_eq_nil hends, seamTools_eq_nil hother]

/-- An item whose snippet ends with the name of a tool. -/
def cutOffItem : Evidence :=
  { kind := .artifactPath, description := "made from an output", strength := 50,
    snippet := some "terraform output -json web | jq" }

/-- An item whose snippet shows the mark of a tool. -/
def filteredItem : Evidence :=
  { kind := .expressionMatch, description := "taken from a file", strength := 70,
    snippet := some "jq -r .web.value web.json" }

/-- An item whose snippet mentions no tool. -/
def plainItem : Evidence :=
  { kind := .artifactPath, description := "used by a chart", strength := 50, snippet := some "-f web.json" }

/-- Two items, one with the mark of a tool, score the same in both orders. -/
theorem breakdown_of_reordered_pair :
    [filteredItem, plainItem].Perm [plainItem, filteredItem] ∧
      (∀ s ∈ quotedSnippets [filteredItem, plainItem], ∀ tool ∈ namedTools, endsWith s tool = false) ∧
      (seamTools [filteredItem, plainItem]).length = (seamTools [plainItem, filteredItem]).length ∧
      breakdown ScoringWeights.standard Evidence.exactStrength "output_to_file"
          [filteredItem, plainItem] =
        breakdown ScoringWeights.standard Evidence.exactStrength "output_to_file"
          [plainItem, filteredItem] :=
  have hswap := List.Perm.swap plainItem filteredItem []
  have hends : ∀ s ∈ quotedSnippets [filteredItem, plainItem], ∀ tool ∈ namedTools,
      endsWith s tool = false := by decide +kernel
  ⟨hswap, hends, by decide +kernel, (breakdown_of_reordered hswap "output_to_file").2.2.2.2.2 hends⟩

/-- The same evidence in the other order loses the penalty, three points and a level. -/
theorem order_changes_score :
    [cutOffItem, plainItem].Perm [plainItem, cutOffItem] ∧
      breakdown ScoringWeights.standard Evidence.exactStrength "artifact_transfer"
        [cutOffItem, plainItem] =
          { patternBase := 65, evidenceScore := 15, explicitBonus := 0, weaknessPenalty := 3, total := 77,
            level := .medium } ∧
      breakdown ScoringWeights.standard Evidence.exactStrength "artifact_transfer"
        [plainItem, cutOffItem] =
          { patternBase := 65, evidenceScore := 15, explicitBonus := 0, weaknessPenalty := 0, total := 80,
            level := .high } :=
  ⟨List.Perm.swap plainItem cutOffItem [], by decide +kernel, by decide +kernel⟩

end DeployTrace
