/-
  DeployTrace/Proofs/WrittenReferences.lean --- reading a reference and writing it.

  WHAT THIS FILE IS FOR.  A reference is written as its scope, maybe an owner followed by `.outputs.`, and
  its name.  That looks ambiguous, since `outputs` may itself be an owner or a name; but no part of a
  reference holds a dot, so that the dots tell the parts.

  TWO DIRECTIONS.  `matchStart_written` says what the pattern for references finds in a written one, and
  `exists_written_of_matchStart` that it finds something in written references only.  Between a text and
  the reference stand blanks and maybe an expression; `IsBareTextOf` says which text is left when they are
  taken off, and `referenceText` is that text.
-/
import DeployTrace.Step.Reference
import DeployTrace.Proofs.Calls
import DeployTrace.Proofs.FirstReadings
import DeployTrace.Proofs.Stripping
import Mathlib.Data.List.Basic

set_option autoImplicit false

namespace DeployTrace

open Text Pattern

/-! ## Written references -/

/-- The owner in front of a name, as it is written. -/
def ownerText : Option String → String
  | some owner => owner ++ ".outputs."
  | none => ""

/-- A reference as it is written; one of no known scope is its name alone. -/
def VariableReference.written (r : VariableReference) : String :=
  match r.scope with
  | .other => r.name
  | scope => scope.name ++ "." ++ ownerText r.owner ++ r.name

/-- A text of word characters and hyphens that is not empty. -/
structure IsReferenceName (text : String) : Prop where
  ne_nil : text.toList ≠ []
  chars : ∀ c ∈ text.toList, isNamePart c = true

/-- A reference of a known scope, whose owner and name can be told apart. -/
structure VariableReference.IsNamed (r : VariableReference) : Prop where
  scope : r.scope ≠ .other
  name : IsReferenceName r.name
  owner : ∀ owner ∈ r.owner, IsReferenceName owner

/-- The parts that are marked in a written reference, latest first. -/
def VariableReference.parts (r : VariableReference) : List (Nat × Chars) :=
  (3, r.name.toList) :: ((r.owner.map fun owner => (2, owner.toList)).toList ++ [(1, r.scope.name.toList)])

theorem isNamePart_dot : isNamePart '.' = false := by decide

theorem isBlank_eq_false_of_isNamePart {c : Char} (h : isNamePart c = true) : isBlank c = false := by
  rcases Bool.or_eq_true_iff.mp h with hword | hhyphen
  · exact isBlank_eq_false_of_isWord hword
  · rw [beq_iff_eq.mp hhyphen]
    decide

/-! ## Patterns that reach the end of the text -/

/-- Whether a pattern ends with the end of the text. -/
def Text.Pattern.closes : Pattern → Bool
  | both _ second => second.closes
  | textEnd => true
  | _ => false

theorem Text.Place.atEnd_iff {place : Text.Place} :
    place.atEnd = true ↔ place.rest = [] ∨ place.rest = ['\n'] := by
  unfold atEnd
  split <;> simp_all

theorem atEnd_of_reaches {p : Pattern} {place later : Text.Place} (h : p.Reaches place later)
    (closes : p.closes = true) : later.atEnd = true := by
  induction h with
  | both _ _ _ ih => exact ih closes
  | textEnd hend => exact hend
  | _ => cases closes

/-- A pattern that ends with the end of the text reads all of a text that no line feed ends. -/
theorem reads_of_matchStart {p : Pattern} {text : Chars} {m : Match} (closes : p.closes = true)
    (hmatch : p.matchStart text = some m) (hlast : text.getLast? ≠ some '\n') :
    ∃ parts, p.Reads text parts := by
  obtain ⟨later, hreach, -⟩ := run_sound hmatch
  have hend := atEnd_of_reaches hreach closes
  obtain ⟨read, parts, hreads, ⟨rest, hrest⟩, rfl⟩ := hreach.reads_text
  have hrest : read ++ rest = text := hrest
  subst hrest
  refine ⟨parts, ?_⟩
  rw [Text.Place.atEnd_iff, Text.Place.after, List.drop_left] at hend
  rcases hend with rfl | rfl
  · rwa [List.append_nil]
  · exact absurd List.getLast?_concat hlast

section

variable {r : VariableReference} {owner : Option String} {name : String} {rest : Chars}

theorem VariableReference.toList_written (hscope : r.scope ≠ .other) :
    r.written.toList =
      r.scope.name.toList ++ (".".toList ++ ((ownerText r.owner).toList ++ r.name.toList)) := by
  unfold written
  split
  · rename_i hother
    exact absurd hother hscope
  · simp [String.toList_append]

/-- A written reference starts with a letter and ends with a character of its name. -/
theorem VariableReference.IsNamed.isStripped (h : r.IsNamed) : IsStripped isBlank r.written.toList := by
  rw [r.toList_written h.scope]
  constructor
  · intro c hc
    cases hscope : r.scope with
    | other => exact absurd hscope h.scope
    | needs | env | steps =>
        rw [hscope] at hc
        cases hc
        decide
  · intro c hc
    obtain ⟨init, last, hname⟩ := (List.eq_nil_or_concat r.name.toList).resolve_left h.name.ne_nil
    rw [List.concat_eq_append] at hname
    rw [hname] at hc
    simp only [← List.append_assoc, List.getLast?_concat, Option.mem_def, Option.some.injEq] at hc
    refine isBlank_eq_false_of_isNamePart (h.name.chars c ?_)
    rw [hname, ← hc]
    simp

/-! ### What the pattern takes -/

/-- The words for the scopes start with different letters. -/
theorem scopeWords_apart : ∀ v ∈ ["needs", "env", "steps"], ∀ w ∈ ["needs", "env", "steps"],
    v = w ∨ (v.toList.head? ≠ w.toList.head? ∧ v.toList ≠ [] ∧ w.toList ≠ []) := by
  decide

theorem takes_scope (hscope : r.scope ≠ .other) (rest : Chars) :
    (oneWordOf ["needs", "env", "steps"]).Takes r.scope.name.toList [] rest := by
  have hmem : r.scope.name ∈ ["needs", "env", "steps"] := by
    cases hs : r.scope with
    | other => exact absurd hs hscope
    | needs | env | steps => decide
  refine takes_oneOf_of_mem (List.mem_map_of_mem hmem) (takes_word r.scope.name) fun p hp => ?_
  obtain ⟨w, hw, rfl⟩ := List.mem_map.mp hp
  rcases scopeWords_apart w hw _ hmem with rfl | ⟨hhead, hne, hscopeNe⟩
  · exact Or.inl rfl
  · refine Or.inr (refuses_word fun ⟨more, hmore⟩ => hhead ?_)
    have hsame := congrArg List.head? hmore
    rwa [List.head?_append_of_ne_nil _ hne, List.head?_append_of_ne_nil _ hscopeNe] at hsame

theorem takes_owner (howner : ∀ o ∈ owner, IsReferenceName o) (hname : IsReferenceName name) :
    (optional (seq [mark 2 (span1 isNamePart), word ".outputs."])).Takes (ownerText owner).toList
      (owner.map fun o => (2, o.toList)).toList name.toList := by
  cases owner with
  | none =>
      refine takes_right ?_ takes_nothing
      intro read parts hreads hstands
      obtain ⟨a, b, m, n, -, hb, rfl, -⟩ := reads_seq_cons.mp hreads
      have hdot : '.' ∈ a ++ b := by
        refine List.mem_append_right a ?_
        rw [(reads_word.mp hb).1]
        decide
      have hpart := hname.chars '.' (hstands.subset hdot)
      rw [isNamePart_dot] at hpart
      cases hpart
  | some o =>
      obtain ⟨hne, hall⟩ := howner o rfl
      have hspan : (span1 isNamePart).Takes o.toList [] (".outputs.".toList ++ name.toList) := by
        refine takes_span1 hne hall fun c hc => ?_
        cases hc
        exact isNamePart_dot
      have hseq : (seq [mark 2 (span1 isNamePart), word ".outputs."]).Takes
          (o.toList ++ ".outputs.".toList) [(2, o.toList)] name.toList :=
        takes_seq_cons (takes_mark hspan) (takes_word ".outputs.")
      have htext : (ownerText (some o)).toList = o.toList ++ ".outputs.".toList := String.toList_append
      rw [htext]
      exact takes_left hseq

/-- What the pattern finds in a written reference are its parts. -/
theorem matchStart_written (h : r.IsNamed) : referencePattern.matchStart r.written.toList =
    some { skipped := 0, whole := r.written.toList, marks := r.parts } := by
  have hend : (seq [textEnd]).Takes [] [] [] := by
    intro β next place hplace _
    have hat : place.atEnd = true := Text.Place.atEnd_iff.mpr (Or.inl hplace)
    rw [after_nil]
    simp [seq, run, hat]
  have hname : (seq [mark 3 (span1 isNamePart), textEnd]).Takes (r.name.toList ++ [])
      [(3, r.name.toList)] [] :=
    takes_seq_cons (takes_mark (takes_span1 h.name.ne_nil h.name.chars fun c hc => by cases hc)) hend
  rw [List.append_nil] at hname
  have howner := takes_owner h.owner h.name
  rw [← List.append_nil r.name.toList] at howner
  have hscope : (mark 1 (oneWordOf ["needs", "env", "steps"])).Takes r.scope.name.toList
      [(1, r.scope.name.toList)] (".".toList ++ ((ownerText r.owner).toList ++ r.name.toList) ++ []) :=
    takes_mark (takes_scope h.scope _)
  have htakes := takes_seq_cons hscope (takes_seq_word (takes_seq_cons howner hname))
  have hmatch := matchBetween_of_takes htakes []
  rw [List.append_nil, ← r.toList_written h.scope] at hmatch
  exact hmatch

/-! ### What the pattern finds -/

theorem exists_scope_of_reads {text : Chars} {parts : List (Nat × Chars)}
    (h : (oneWordOf ["needs", "env", "steps"]).Reads text parts) :
    ∃ scope : VariableScope, scope ≠ .other ∧ text = scope.name.toList := by
  obtain ⟨p, hp, hreads⟩ := reads_oneOf.mp h
  obtain ⟨w, hw, rfl⟩ := List.mem_map.mp hp
  have hnamed : ∀ w ∈ ["needs", "env", "steps"], ∃ scope : VariableScope, scope ≠ .other ∧ w = scope.name := by
    simp only [List.forall_mem_cons]
    exact ⟨⟨.needs, by decide, rfl⟩, ⟨.env, by decide, rfl⟩, ⟨.steps, by decide, rfl⟩, by simp⟩
  obtain ⟨scope, hscope, rfl⟩ := hnamed w hw
  exact ⟨scope, hscope, (reads_word.mp hreads).1⟩

theorem exists_owner_of_reads {text : Chars} {parts : List (Nat × Chars)}
    (h : (optional (seq [mark 2 (span1 isNamePart), word ".outputs."])).Reads text parts) :
    ∃ owner : Option String, (∀ o ∈ owner, IsReferenceName o) ∧ text = (ownerText owner).toList := by
  rcases reads_optional.mp h with hseq | ⟨rfl, -⟩
  · obtain ⟨o, after, _, _, ⟨_, ho, -⟩, hafter, rfl, -⟩ := reads_seq_cons.mp hseq
    obtain ⟨hne, hchars, -⟩ := reads_span1.mp ho
    refine ⟨some (String.ofList o), ?_, ?_⟩
    · rintro _ ⟨⟩
      exact ⟨by rwa [String.toList_ofList], by rwa [String.toList_ofList]⟩
    · rw [(reads_word.mp hafter).1]
      simp [ownerText, String.toList_append]
  · exact ⟨none, by simp, rfl⟩

/-- A text in which the pattern finds something, and that no line feed ends, is a written reference. -/
theorem exists_written_of_matchStart {text : Chars} {m : Match}
    (hmatch : referencePattern.matchStart text = some m) (hlast : text.getLast? ≠ some '\n') :
    ∃ r : VariableReference, r.IsNamed ∧ r.written.toList = text := by
  obtain ⟨parts, hreads⟩ := reads_of_matchStart rfl hmatch hlast
  obtain ⟨scope, afterScope, _, _, ⟨_, hscope, -⟩, hafterScope, rfl, -⟩ := reads_seq_cons.mp hreads
  obtain ⟨afterDot, hafterDot, rfl⟩ := reads_seq_word.mp hafterScope
  obtain ⟨front, afterFront, _, _, hfront, hafterFront, rfl, -⟩ := reads_seq_cons.mp hafterDot
  obtain ⟨name, rest, _, _, ⟨_, hname, -⟩, ⟨rfl, -⟩, rfl, -⟩ := reads_seq_cons.mp hafterFront
  obtain ⟨known, hknown, rfl⟩ := exists_scope_of_reads hscope
  obtain ⟨owner, howner, rfl⟩ := exists_owner_of_reads hfront
  obtain ⟨hne, hchars, -⟩ := reads_span1.mp hname
  refine ⟨⟨known, String.ofList name, owner⟩, ⟨hknown, ⟨?_, ?_⟩, howner⟩, ?_⟩
  · rwa [String.toList_ofList]
  · rwa [String.toList_ofList]
  · rw [VariableReference.toList_written hknown]
    simp only [String.toList_ofList, List.append_nil]

end

/-! ## Bare texts -/

/-- A text in an expression. -/
def expressionOf (inner : Chars) : Chars := "$\x7b\x7b".toList ++ inner ++ "\x7d\x7d".toList

/-- A text without the blanks around it and, if that is an expression, what stands in the expression
without the blanks around that. -/
inductive IsBareTextOf (bare : Chars) : Chars → Prop where
  | plain {before after : Chars} (hbare : IsStripped isBlank bare)
      (hplain : ∀ inner, bare ≠ expressionOf inner) (hbefore : ∀ c ∈ before, isBlank c = true)
      (hafter : ∀ c ∈ after, isBlank c = true) : IsBareTextOf bare (before ++ bare ++ after)
  | inExpression {before left right after : Chars} (hbare : IsStripped isBlank bare)
      (hbefore : ∀ c ∈ before, isBlank c = true) (hleft : ∀ c ∈ left, isBlank c = true)
      (hright : ∀ c ∈ right, isBlank c = true) (hafter : ∀ c ∈ after, isBlank c = true) :
      IsBareTextOf bare (before ++ expressionOf (left ++ bare ++ right) ++ after)

section

variable {text bare inner : Chars}

theorem IsBareTextOf.isStripped (h : IsBareTextOf bare text) : IsStripped isBlank bare := by
  cases h <;> assumption

/-- A reference starts with a letter, and so is no expression. -/
theorem VariableReference.IsNamed.ne_expressionOf {r : VariableReference} (h : r.IsNamed) (inner : Chars) :
    r.written.toList ≠ expressionOf inner := by
  intro heq
  have hhead := congrArg List.head? heq
  rw [r.toList_written h.scope] at hhead
  cases hscope : r.scope with
  | other => exact h.scope hscope
  | needs | env | steps =>
      rw [hscope] at hhead
      revert hhead
      simp [VariableScope.name, expressionOf]

theorem isStripped_expressionOf (inner : Chars) : IsStripped isBlank (expressionOf inner) := by
  constructor
  · intro c hc
    cases hc
    decide
  · intro c hc
    have hlast : (expressionOf inner).getLast? = some '\x7d' := by
      unfold expressionOf
      rw [List.getLast?_append]
      rfl
    rw [hlast] at hc
    cases hc
    decide

/-- An expression is recognised by its two ends. -/
theorem isExpression_iff : ("$\x7b\x7b".toList.isPrefixOf bare && "\x7d\x7d".toList.isSuffixOf bare) = true ↔
    ∃ inner, bare = expressionOf inner := by
  rw [Bool.and_eq_true, List.isPrefixOf_iff_prefix, List.isSuffixOf_iff_suffix]
  constructor
  · rintro ⟨⟨rest, rfl⟩, hclose⟩
    -- The ends do not overlap: what stands after the first end is long enough for the second.
    rcases Nat.lt_or_ge rest.length 2 with hshort | hlong
    · rw [List.suffix_iff_eq_drop] at hclose
      match rest with
      | [] => exact absurd hclose (by decide)
      | [c] => simp at hclose
      | _ :: _ :: _ => exact absurd hshort (by simp)
    · obtain ⟨inner, rfl⟩ := List.suffix_of_suffix_length_le hclose (List.suffix_append _ rest) hlong
      exact ⟨inner, by simp [expressionOf]⟩
  · rintro ⟨inner, rfl⟩
    exact ⟨⟨inner ++ "\x7d\x7d".toList, by simp [expressionOf]⟩, ⟨"$\x7b\x7b".toList ++ inner, rfl⟩⟩

theorem inner_of_expressionOf (inner : Chars) :
    ((expressionOf inner).drop 3).take ((expressionOf inner).length - 5) = inner := by
  have hlength : (expressionOf inner).length - 5 = inner.length := by
    simp [expressionOf]
  have hdrop : (expressionOf inner).drop 3 = inner ++ "\x7d\x7d".toList := by
    simp [expressionOf]
  rw [hlength, hdrop, List.take_left]

theorem referenceText_eq (h : IsBareTextOf bare text) : referenceText text = bare := by
  unfold referenceText stripChars
  cases h with
  | plain hbare hplain hbefore hafter =>
      have hnot : ¬ ∃ inner, bare = expressionOf inner := fun ⟨inner, hinner⟩ => hplain inner hinner
      simp only [stripWhile_eq hbare hbefore hafter, isExpression_iff, hnot, if_false]
  | @inExpression before left right after hbare hbefore hleft hright hafter =>
      have hexpression := stripWhile_eq (isStripped_expressionOf (left ++ bare ++ right)) hbefore hafter
      have hexists : ∃ inner, expressionOf (left ++ bare ++ right) = expressionOf inner := ⟨_, rfl⟩
      simp only [hexpression, isExpression_iff, hexists, if_true, inner_of_expressionOf,
        stripWhile_eq hbare hleft hright]

theorem isBareTextOf_referenceText (text : Chars) : IsBareTextOf (referenceText text) text := by
  obtain ⟨before, after, htext, hbefore, hafter⟩ := exists_stripWhile (p := isBlank) text
  have hstripped := isStripped_stripWhile (p := isBlank) text
  by_cases hexpression : ∃ inner, stripWhile isBlank text = expressionOf inner
  · obtain ⟨inner, hinner⟩ := hexpression
    obtain ⟨left, right, hsplit, hleft, hright⟩ := exists_stripWhile (p := isBlank) inner
    have hwrapped := IsBareTextOf.inExpression (isStripped_stripWhile inner) hbefore hleft hright hafter
    rw [← hsplit, ← hinner, ← htext] at hwrapped
    rwa [referenceText_eq hwrapped]
  · have hplain := IsBareTextOf.plain hstripped (fun inner hinner => hexpression ⟨inner, hinner⟩) hbefore hafter
    rw [← htext] at hplain
    rwa [referenceText_eq hplain]

end

/-! ## Reading -/

theorem VariableScope.ofName_name (scope : VariableScope) : ofName scope.name = scope := by
  cases scope <;> rfl

/-- The parts of a written reference are put together again. -/
theorem VariableReference.read_of_written {r : VariableReference} {text : String} (h : r.IsNamed)
    (hbare : referenceText text.toList = r.written.toList) : read text = r := by
  obtain ⟨scope, name, owner⟩ := r
  unfold read
  simp only [hbare, matchStart_written h]
  cases owner <;> simp [parts, Match.part, Match.part?, List.lookup_cons, VariableScope.ofName_name]

/-- What is read from a text is a reference whose written form is the bare text, or the bare text itself
as a name. -/
theorem VariableReference.read_cases (text : String) :
    ((read text).IsNamed ∧ (read text).written.toList = referenceText text.toList) ∨
      read text = { scope := .other, name := String.ofList (referenceText text.toList), owner := none } := by
  cases hmatch : referencePattern.matchStart (referenceText text.toList) with
  | none =>
      right
      unfold read
      simp only [hmatch]
  | some m =>
      left
      have hlast : (referenceText text.toList).getLast? ≠ some '\n' := by
        intro hfeed
        have hblank := (isBareTextOf_referenceText text.toList).isStripped.last '\n' hfeed
        exact absurd hblank (by decide)
      obtain ⟨r, hr, hwritten⟩ := exists_written_of_matchStart hmatch hlast
      rw [read_of_written hr hwritten.symm]
      exact ⟨hr, hwritten⟩

/-- Reading and writing references are inverse to each other. A written reference is read again with any
blanks around it, in an expression or not. And what is read from a text is written as its bare text,
unless the scope is not known: then the name is the bare text, and there is no owner. -/
theorem VariableReference.read_written :
    (∀ r : VariableReference, r.IsNamed → ∀ before left right after : Chars,
      (∀ c ∈ before ++ left ++ right ++ after, isBlank c = true) →
      read (String.ofList (before ++ r.written.toList ++ after)) = r ∧
        read (String.ofList (before ++ expressionOf (left ++ r.written.toList ++ right) ++ after)) = r) ∧
    ∀ text : String, ∃ bare, IsBareTextOf bare text.toList ∧
      ((read text).scope ≠ .other → (read text).IsNamed ∧ (read text).written.toList = bare) ∧
      ((read text).scope = .other → (read text).name.toList = bare ∧ (read text).owner = none) := by
  constructor
  · intro r hr before left right after hblank
    simp only [List.forall_mem_append] at hblank
    obtain ⟨⟨⟨hbefore, hleft⟩, hright⟩, hafter⟩ := hblank
    have hplain : IsBareTextOf r.written.toList (before ++ r.written.toList ++ after) :=
      .plain hr.isStripped hr.ne_expressionOf hbefore hafter
    have hexpression :
        IsBareTextOf r.written.toList (before ++ expressionOf (left ++ r.written.toList ++ right) ++ after) :=
      .inExpression hr.isStripped hbefore hleft hright hafter
    constructor
    · exact read_of_written hr (by rw [String.toList_ofList, referenceText_eq hplain])
    · exact read_of_written hr (by rw [String.toList_ofList, referenceText_eq hexpression])
  · intro text
    refine ⟨referenceText text.toList, isBareTextOf_referenceText text.toList, ?_, ?_⟩
    · intro hscope
      rcases read_cases text with hnamed | hother
      · exact hnamed
      · rw [hother] at hscope
        exact absurd rfl hscope
    · intro hscope
      rcases read_cases text with ⟨hnamed, -⟩ | hother
      · exact absurd hscope hnamed.scope
      · rw [hother]
        exact ⟨String.toList_ofList, rfl⟩

/-- An owner that is called as the word between owner and name. -/
def outputsOfOutputs : VariableReference := { scope := .needs, name := "vpc-id", owner := some "outputs" }

/-- The reference is read from an expression with a tab, a line end and a blank of another script. -/
theorem VariableReference.read_written_outputs :
    outputsOfOutputs.IsNamed ∧
      read "\t$\x7b\x7b needs.outputs.outputs.vpc-id\u3000\x7d\x7d\n" = outputsOfOutputs := by
  have hnamed : outputsOfOutputs.IsNamed := by
    refine ⟨by decide, ⟨by decide, List.all_eq_true.mp (by decide)⟩, ?_⟩
    rintro _ ⟨⟩
    exact ⟨by decide, List.all_eq_true.mp (by decide)⟩
  have hblank : ∀ c ∈ ['\t'] ++ [' '] ++ ['\u3000'] ++ ['\n'], isBlank c = true :=
    List.all_eq_true.mp (by decide)
  exact ⟨hnamed, (VariableReference.read_written.1 outputsOfOutputs hnamed _ _ _ _ hblank).2⟩

end DeployTrace
