/-
  DeployTrace/Proofs/SetCuts.lean --- where the value of a set flag is cut.

  WHAT THIS FILE IS FOR.  One flag may set several values, with commas between them, and a value may hold
  commas of its own: in quotes, in a list, in a substitution.  This file says which commas cut:

      a=1,b=2                    At the comma: `a` is 1, and `b` is 2.
      a=1,2,b=3                  Only at the second: nothing is named behind the first one.
      a=$(f 1,b=2),c="3,d=4"     Only at the comma before `c`.

  HOW IT IS PROVED.  The scan is one pass over the characters.  `Outside` says without it which texts
  leave no quotation open, and how many brackets (`outside_iff`).  The value is cut into pieces at all
  commas outside (`piecesFrom_cut`, `piecesFrom_before`), and a piece with an equals sign begins a pair
  (`cutBehind_pairsFrom_iff`).
-/
import DeployTrace.Shell.Helm
import DeployTrace.Proofs.ValueUses

set_option autoImplicit false

namespace DeployTrace.Shell.Helm

open Text

/-! ## Quotations and brackets -/

/-- A text at whose end no quotation is open, and so many brackets are.  What stands in quotation marks
opens and closes nothing, and neither does a closing bracket where none is open. -/
inductive Outside : Nat → Chars → Prop
  | start : Outside 0 []
  | plain {depth : Nat} {text : Chars} {c : Char} (before : Outside depth text) (quote : opensQuote c = false)
      (opening : opensBracket c = false) (closing : closesBracket c = false) : Outside depth (text ++ [c])
  | opening {depth : Nat} {text : Chars} {c : Char} (before : Outside depth text)
      (bracket : opensBracket c = true) : Outside (depth + 1) (text ++ [c])
  | closing {depth : Nat} {text : Chars} {c : Char} (before : Outside depth text)
      (bracket : closesBracket c = true) : Outside (depth - 1) (text ++ [c])
  | quotation {depth : Nat} {text body : Chars} {mark : Char} (before : Outside depth text)
      (quote : opensQuote mark = true) (inside : mark ∉ body) : Outside depth (text ++ mark :: (body ++ [mark]))

/-- What a scan says of the text that it has gone over: a text outside of quotations, or one in which a
quotation with the mark is open. -/
def Scan.Shows (s : Scan) (text : Chars) : Prop :=
  match s.quote with
  | none => Outside s.depth text
  | some mark => ∃ before body, text = before ++ mark :: body ∧ Outside s.depth before ∧
      opensQuote mark = true ∧ mark ∉ body

section

variable {s : Scan} {depth : Nat} {mark c : Char} {text before body : Chars}

theorem opensQuote_of_bracket (h : opensBracket c = true ∨ closesBracket c = true) : opensQuote c = false := by
  simp only [opensBracket, closesBracket, Bool.or_eq_true, beq_iff_eq] at h
  rcases h with ((rfl | rfl) | rfl) | ((rfl | rfl) | rfl) <;> decide

theorem opensBracket_of_closes (h : closesBracket c = true) : opensBracket c = false := by
  simp only [closesBracket, Bool.or_eq_true, beq_iff_eq] at h
  rcases h with (rfl | rfl) | rfl <;> decide

/-- In a quotation nothing but its mark counts. -/
theorem foldl_next_quoted (h : mark ∉ body) : body.foldl Scan.next ⟨depth, some mark⟩ = ⟨depth, some mark⟩ := by
  induction body with
  | nil => rfl
  | cons c body ih =>
      obtain ⟨hc, hbody⟩ := not_or.mp (mt List.mem_cons.mpr h)
      have hnext : Scan.next ⟨depth, some mark⟩ c = ⟨depth, some mark⟩ := by simp [Scan.next, Ne.symm hc]
      rw [List.foldl_cons, hnext, ih hbody]

theorem Outside.foldl_next (h : Outside depth text) : text.foldl Scan.next .start = ⟨depth, none⟩ := by
  induction h with
  | start => rfl
  | plain before quote opening closing ih =>
      rw [List.foldl_append, ih]
      simp [Scan.next, quote, opening, closing]
  | opening before bracket ih =>
      rw [List.foldl_append, ih]
      simp [Scan.next, opensQuote_of_bracket (Or.inl bracket), bracket]
  | closing before bracket ih =>
      rw [List.foldl_append, ih]
      simp [Scan.next, opensQuote_of_bracket (Or.inr bracket), opensBracket_of_closes bracket, bracket]
  | @quotation depth text body mark before quote inside ih =>
      have hopen : Scan.next ⟨depth, none⟩ mark = ⟨depth, some mark⟩ := by simp [Scan.next, quote]
      rw [List.foldl_append, ih, List.foldl_cons, hopen, List.foldl_append, foldl_next_quoted inside]
      simp [Scan.next]

/-- One character more. -/
theorem Scan.Shows.next (h : s.Shows text) (c : Char) : (s.next c).Shows (text ++ [c]) := by
  obtain ⟨depth, quote⟩ := s
  cases quote with
  | none =>
      have before : Outside depth text := h
      cases hquote : opensQuote c with
      | true =>
          have hnext : Scan.next ⟨depth, none⟩ c = ⟨depth, some c⟩ := by simp [Scan.next, hquote]
          rw [hnext]
          exact ⟨text, [], rfl, before, hquote, List.not_mem_nil⟩
      | false =>
          cases hopens : opensBracket c with
          | true =>
              have hnext : Scan.next ⟨depth, none⟩ c = ⟨depth + 1, none⟩ := by simp [Scan.next, hquote, hopens]
              rw [hnext]
              exact before.opening hopens
          | false =>
              cases hcloses : closesBracket c with
              | true =>
                  have hnext : Scan.next ⟨depth, none⟩ c = ⟨depth - 1, none⟩ := by
                    simp [Scan.next, hquote, hopens, hcloses]
                  rw [hnext]
                  exact before.closing hcloses
              | false =>
                  have hnext : Scan.next ⟨depth, none⟩ c = ⟨depth, none⟩ := by
                    simp [Scan.next, hquote, hopens, hcloses]
                  rw [hnext]
                  exact before.plain hquote hopens hcloses
  | some mark =>
      obtain ⟨front, body, rfl, before, hquote, hbody⟩ := h
      by_cases hc : c = mark
      · have hnext : Scan.next ⟨depth, some mark⟩ c = ⟨depth, none⟩ := by simp [Scan.next, hc]
        have hclosed : Outside depth (front ++ mark :: (body ++ [mark])) := before.quotation hquote hbody
        rw [hnext, hc, List.append_assoc]
        exact hclosed
      · have hnext : Scan.next ⟨depth, some mark⟩ c = ⟨depth, some mark⟩ := by simp [Scan.next, hc]
        rw [hnext]
        exact ⟨front, body ++ [c], by simp, before, hquote, by simp [hbody, Ne.symm hc]⟩

theorem Scan.Shows.foldl (h : s.Shows before) (text : Chars) : (text.foldl Scan.next s).Shows (before ++ text) := by
  induction text generalizing s before with
  | nil => simpa using h
  | cons c text ih => simpa using ih (h.next c)

theorem outside_iff : Outside depth text ↔ text.foldl Scan.next .start = ⟨depth, none⟩ := by
  have hstart : Scan.Shows .start [] := Outside.start
  refine ⟨Outside.foldl_next, fun hscan => ?_⟩
  have hshows := hstart.foldl text
  rwa [hscan] at hshows

end

/-! ## Pieces -/

/-- An equals sign stands in a text, and no comma outside of quotations and brackets before it. -/
def NamesValue (text : Chars) : Prop :=
  ∃ name rest, text = name ++ '=' :: rest ∧ ∀ before after, name = before ++ ',' :: after → ¬ Outside 0 before

section

variable {s : Scan} {c : Char} {value before after piece : Chars} {front back : List Chars}

theorem intercalate_cons (text : Chars) (more : List Chars) :
    [','].intercalate (text :: more) = text ++ (more.map (',' :: ·)).flatten := by
  induction more generalizing text with
  | nil => simp
  | cons next more ih => rw [List.intercalate_cons_cons, ih next]; simp

/-- A value is its pieces with commas between them. -/
theorem intercalate_piecesFrom (s : Scan) (value : Chars) :
    [','].intercalate ((piecesFrom s value).1 :: (piecesFrom s value).2) = value :=
  (intercalate_cons _ _).trans (piecesFrom_join s value)

theorem cutsAt_iff : s.cutsAt c = true ↔ c = ',' ∧ s = .start := by
  obtain ⟨depth, quote⟩ := s
  cases quote <;> simp [Scan.cutsAt, Scan.start]

theorem piecesFrom_of_cuts (h : s.cutsAt c = true) :
    piecesFrom s (c :: value) = ([], (piecesFrom .start value).1 :: (piecesFrom .start value).2) := by
  obtain ⟨rfl, rfl⟩ := cutsAt_iff.mp h
  rfl

theorem piecesFrom_of_stays (h : s.cutsAt c = false) :
    piecesFrom s (c :: value) = (c :: (piecesFrom (s.next c) value).1, (piecesFrom (s.next c) value).2) := by
  conv => lhs; unfold piecesFrom
  simp [h]

/-- At a comma outside, the pieces before it and the pieces behind it are read apart. -/
theorem piecesFrom_cut (h : before.foldl Scan.next s = .start) :
    piecesFrom s (before ++ ',' :: after) = ((piecesFrom s before).1,
      (piecesFrom s before).2 ++ (piecesFrom .start after).1 :: (piecesFrom .start after).2) := by
  induction before generalizing s with
  | nil =>
      obtain rfl : s = .start := h
      exact piecesFrom_of_cuts rfl
  | cons c before ih =>
      have hrest := ih h
      cases hcut : s.cutsAt c with
      | true =>
          obtain ⟨rfl, rfl⟩ := cutsAt_iff.mp hcut
          rw [List.cons_append, piecesFrom_of_cuts rfl, piecesFrom_of_cuts rfl]
          have hstart : Scan.next .start ',' = .start := rfl
          rw [hstart] at hrest
          rw [hrest]
          rfl
      | false => rw [List.cons_append, piecesFrom_of_stays hcut, piecesFrom_of_stays hcut, hrest]

/-- Between two pieces stands a comma outside, and the pieces before it are those of the text before it. -/
theorem piecesFrom_before (h : (piecesFrom s value).2 = front ++ piece :: back) :
    ([','].intercalate ((piecesFrom s value).1 :: front)).foldl Scan.next s = .start ∧
      piecesFrom s ([','].intercalate ((piecesFrom s value).1 :: front)) = ((piecesFrom s value).1, front) := by
  induction value generalizing s front with
  | nil => simp [piecesFrom] at h
  | cons c value ih =>
      cases hcut : s.cutsAt c with
      | true =>
          rw [piecesFrom_of_cuts hcut] at h ⊢
          obtain ⟨rfl, rfl⟩ := cutsAt_iff.mp hcut
          cases front with
          | nil => exact ⟨rfl, rfl⟩
          | cons first front =>
              obtain ⟨rfl, hmore⟩ := List.cons.inj h
              obtain ⟨hscan, hpieces⟩ := ih hmore
              have htext : [','].intercalate ([] :: (piecesFrom .start value).1 :: front) =
                  ',' :: [','].intercalate ((piecesFrom .start value).1 :: front) := List.intercalate_cons_cons
              rw [htext, piecesFrom_of_cuts hcut, hpieces]
              exact ⟨hscan, rfl⟩
      | false =>
          rw [piecesFrom_of_stays hcut] at h ⊢
          obtain ⟨hscan, hpieces⟩ := ih h
          have htext : [','].intercalate ((c :: (piecesFrom (s.next c) value).1) :: front) =
              c :: [','].intercalate ((piecesFrom (s.next c) value).1 :: front) := by
            rw [intercalate_cons, intercalate_cons]
            rfl
          rw [htext, piecesFrom_of_stays hcut, hpieces]
          exact ⟨hscan, rfl⟩

/-- The first piece has an equals sign when one stands before the first comma outside. -/
theorem mem_firstPiece_iff : '=' ∈ (piecesFrom s value).1 ↔ ∃ name rest, value = name ++ '=' :: rest ∧
    ∀ before after, name = before ++ ',' :: after → before.foldl Scan.next s ≠ .start := by
  induction value generalizing s with
  | nil => simp [piecesFrom]
  | cons c value ih =>
      cases hcut : s.cutsAt c with
      | true =>
          rw [piecesFrom_of_cuts hcut]
          obtain ⟨rfl, rfl⟩ := cutsAt_iff.mp hcut
          refine iff_of_false List.not_mem_nil ?_
          rintro ⟨name, rest, hvalue, hfree⟩
          cases name with
          | nil => exact absurd (List.cons.inj hvalue).1 (by decide)
          | cons d name =>
              obtain ⟨rfl, -⟩ := List.cons.inj hvalue
              exact hfree [] name rfl rfl
      | false =>
          rw [piecesFrom_of_stays hcut, List.mem_cons, ih]
          constructor
          · rintro (rfl | ⟨name, rest, rfl, hfree⟩)
            · exact ⟨[], value, rfl, fun before after h => absurd h (by simp)⟩
            · refine ⟨c :: name, rest, rfl, fun before after h => ?_⟩
              cases before with
              | nil =>
                  obtain ⟨rfl, -⟩ := List.cons.inj h
                  rintro rfl
                  cases hcut
              | cons d before =>
                  obtain ⟨rfl, rfl⟩ := List.cons.inj h
                  exact hfree before after rfl
          · rintro ⟨name, rest, hvalue, hfree⟩
            cases name with
            | nil => exact Or.inl (List.cons.inj hvalue).1.symm
            | cons d name =>
                obtain ⟨rfl, rfl⟩ := List.cons.inj hvalue
                refine Or.inr ⟨name, rest, rfl, fun before after h => ?_⟩
                exact hfree (c :: before) after (congrArg (c :: ·) h)

theorem mem_firstPiece_start_iff : '=' ∈ (piecesFrom .start value).1 ↔ NamesValue value := by
  rw [mem_firstPiece_iff]
  unfold NamesValue
  simp only [outside_iff]
  rfl

end

/-! ## Pairs -/

/-- Pairs as they are written: a comma between two pairs, and an equals sign in each. -/
def pairsText (pairs : List (Chars × Chars)) : Chars := [','].intercalate (pairs.map fun pair => pair.1 ++ '=' :: pair.2)

/-- A text is cut into pairs behind another text: some pairs make up the other text, and more follow. -/
def CutBehind (pairs : List (Chars × Chars)) (before : Chars) : Prop :=
  ∃ kept rest, pairs = kept ++ rest ∧ kept ≠ [] ∧ rest ≠ [] ∧ pairsText kept = before

section

variable {pair next : Chars × Chars} {pairs : List (Chars × Chars)} {piece text : Chars} {pieces : List Chars}

theorem pairsFrom_ne_nil (pair : Chars × Chars) (pieces : List Chars) : pairsFrom pair pieces ≠ [] := by
  induction pieces generalizing pair with
  | nil => exact List.cons_ne_nil _ _
  | cons piece pieces ih =>
      unfold pairsFrom
      split
      · exact List.cons_ne_nil _ _
      · exact ih _

theorem pairsFrom_of_named (h : cutAt '=' piece = some next) :
    pairsFrom pair (piece :: pieces) = pair :: pairsFrom next pieces := by
  conv => lhs; unfold pairsFrom
  simp [h]

theorem pairsFrom_of_unnamed (h : cutAt '=' piece = none) :
    pairsFrom pair (piece :: pieces) = pairsFrom (pair.1, pair.2 ++ ',' :: piece) pieces := by
  conv => lhs; unfold pairsFrom
  simp [h]

theorem notMem_of_cutAt_eq_none {sep : Char} (h : cutAt sep text = none) : sep ∉ text := by
  intro hmem
  obtain ⟨a, b, rfl, ha⟩ := List.eq_append_cons_of_mem hmem
  rw [cutAt_append_cons ha] at h
  cases h

/-- Pairs read from pieces are written as the pieces are. -/
theorem pairsText_pairsFrom (pair : Chars × Chars) (pieces : List Chars) :
    pairsText (pairsFrom pair pieces) = [','].intercalate ((pair.1 ++ '=' :: pair.2) :: pieces) := by
  induction pieces generalizing pair with
  | nil => rfl
  | cons piece pieces ih =>
      cases hcut : cutAt '=' piece with
      | some next =>
          obtain ⟨hpiece, -⟩ := cutAt_eq_some hcut
          obtain ⟨first, more, hpairs⟩ := List.exists_cons_of_ne_nil (pairsFrom_ne_nil next pieces)
          have hmore := ih next
          rw [pairsFrom_of_named hcut, hpairs]
          rw [hpairs, ← hpiece] at hmore
          unfold pairsText at hmore ⊢
          rw [List.map_cons, List.map_cons, List.intercalate_cons_cons, List.intercalate_cons_cons, ← hmore]
          rfl
      | none =>
          rw [pairsFrom_of_unnamed hcut, ih, List.intercalate_cons_cons, intercalate_cons, intercalate_cons]
          simp

/-- Behind the first pair, no key has an equals sign. -/
theorem names_pairsFrom (pair : Chars × Chars) (pieces : List Chars) :
    (pairsFrom pair pieces).head?.map Prod.fst = some pair.1 ∧
      ∀ other ∈ (pairsFrom pair pieces).tail, '=' ∉ other.1 := by
  induction pieces generalizing pair with
  | nil => exact ⟨rfl, by simp [pairsFrom]⟩
  | cons piece pieces ih =>
      cases hcut : cutAt '=' piece with
      | some next =>
          obtain ⟨-, hname⟩ := cutAt_eq_some hcut
          obtain ⟨hfirst, hmore⟩ := ih next
          obtain ⟨first, more, hpairs⟩ := List.exists_cons_of_ne_nil (pairsFrom_ne_nil next pieces)
          rw [pairsFrom_of_named hcut]
          rw [hpairs] at hfirst hmore ⊢
          refine ⟨rfl, List.forall_mem_cons.mpr ⟨?_, hmore⟩⟩
          rwa [Option.some.inj hfirst]
      | none =>
          rw [pairsFrom_of_unnamed hcut]
          exact ih _

theorem pairsText_cons (hne : pairs ≠ []) :
    pairsText (pair :: pairs) = pair.1 ++ '=' :: pair.2 ++ ',' :: pairsText pairs := by
  obtain ⟨first, more, rfl⟩ := List.exists_cons_of_ne_nil hne
  unfold pairsText
  rw [List.map_cons, List.map_cons, List.intercalate_cons_cons]
  simp

/-- Behind one pair more: at the end of that pair, or where the others are cut. -/
theorem cutBehind_cons_iff (hne : pairs ≠ []) : CutBehind (pair :: pairs) text ↔
    text = pair.1 ++ '=' :: pair.2 ∨ ∃ more, CutBehind pairs more ∧ text = pair.1 ++ '=' :: pair.2 ++ ',' :: more := by
  constructor
  · rintro ⟨kept, rest, hpairs, hkept, hrest, rfl⟩
    obtain ⟨first, kept, rfl⟩ := List.exists_cons_of_ne_nil hkept
    obtain ⟨rfl, rfl⟩ := List.cons.inj hpairs
    by_cases hnil : kept = []
    · subst hnil
      exact Or.inl (by simp [pairsText])
    · exact Or.inr ⟨pairsText kept, ⟨kept, rest, rfl, hnil, hrest, rfl⟩, pairsText_cons hnil⟩
  · rintro (rfl | ⟨more, ⟨kept, rest, rfl, hkept, hrest, rfl⟩, rfl⟩)
    · exact ⟨[pair], pairs, rfl, List.cons_ne_nil _ _, hne, by simp [pairsText]⟩
    · exact ⟨pair :: kept, rest, rfl, List.cons_ne_nil _ _, hrest, pairsText_cons hkept⟩

/-- Pairs are cut apart in front of the pieces with an equals sign. -/
theorem cutBehind_pairsFrom_iff : CutBehind (pairsFrom pair pieces) text ↔
    ∃ front piece back, pieces = front ++ piece :: back ∧ '=' ∈ piece ∧
      text = [','].intercalate ((pair.1 ++ '=' :: pair.2) :: front) := by
  induction pieces generalizing pair text with
  | nil =>
      refine iff_of_false ?_ ?_
      · rintro ⟨kept, rest, hpairs, hkept, hrest, -⟩
        obtain ⟨first, kept, rfl⟩ := List.exists_cons_of_ne_nil hkept
        obtain ⟨-, hnil⟩ := List.cons.inj hpairs
        exact hrest (List.append_eq_nil_iff.mp hnil.symm).2
      · rintro ⟨front, piece, back, hnil, -⟩
        simp at hnil
  | cons piece pieces ih =>
      cases hcut : cutAt '=' piece with
      | some next =>
          obtain ⟨hpiece, -⟩ := cutAt_eq_some hcut
          rw [pairsFrom_of_named hcut, cutBehind_cons_iff (pairsFrom_ne_nil next pieces)]
          constructor
          · rintro (rfl | ⟨more, hmore, rfl⟩)
            · exact ⟨[], piece, pieces, rfl, by simp [hpiece], by simp⟩
            · obtain ⟨front, other, back, rfl, hother, rfl⟩ := ih.mp hmore
              refine ⟨piece :: front, other, back, rfl, hother, ?_⟩
              rw [List.intercalate_cons_cons, ← hpiece]
              simp
          · rintro ⟨front, other, back, hpieces, hother, rfl⟩
            cases front with
            | nil => exact Or.inl (by simp)
            | cons first front =>
                obtain ⟨rfl, rfl⟩ := List.cons.inj hpieces
                refine Or.inr ⟨_, ih.mpr ⟨front, other, back, rfl, hother, rfl⟩, ?_⟩
                rw [List.intercalate_cons_cons, ← hpiece]
                simp
      | none =>
          rw [pairsFrom_of_unnamed hcut, ih]
          have hunnamed := notMem_of_cutAt_eq_none hcut
          have hglue : ∀ front, [','].intercalate ((pair.1 ++ '=' :: (pair.2 ++ ',' :: piece)) :: front) =
              [','].intercalate ((pair.1 ++ '=' :: pair.2) :: piece :: front) := by
            intro front
            rw [List.intercalate_cons_cons, intercalate_cons, intercalate_cons]
            simp
          constructor
          · rintro ⟨front, other, back, rfl, hother, rfl⟩
            exact ⟨piece :: front, other, back, rfl, hother, hglue front⟩
          · rintro ⟨front, other, back, hpieces, hother, rfl⟩
            cases front with
            | nil =>
                obtain ⟨rfl, -⟩ := List.cons.inj hpieces
                exact absurd hother hunnamed
            | cons first front =>
                obtain ⟨rfl, rfl⟩ := List.cons.inj hpieces
                exact ⟨front, other, back, rfl, hother, (hglue front).symm⟩

end

/-! ## One flag -/

/-- Pairs of key and raw value that a flag with a key and a value is cut into. -/
structure IsCutOf (key value : Chars) (pairs : List (Chars × Chars)) : Prop where
  first : pairs.head?.map Prod.fst = some key
  names : ∀ pair ∈ pairs.tail, '=' ∉ pair.1
  whole : pairsText pairs = key ++ '=' :: value
  /-- a comma cuts when it stands outside, and an equals sign behind it before the next one outside -/
  commas : ∀ before after, value = before ++ ',' :: after →
    (CutBehind pairs (key ++ '=' :: before) ↔ Outside 0 before ∧ NamesValue after)

theorem cutBehind_rawPairs_iff (key before after : Chars) :
    CutBehind (rawPairs key (before ++ ',' :: after)) (key ++ '=' :: before) ↔
      Outside 0 before ∧ NamesValue after := by
  have hread : rawPairs key (before ++ ',' :: after) =
      pairsFrom (key, (piecesFrom .start (before ++ ',' :: after)).1) (piecesFrom .start (before ++ ',' :: after)).2 :=
    rfl
  rw [hread, cutBehind_pairsFrom_iff, ← mem_firstPiece_start_iff, outside_iff]
  constructor
  · rintro ⟨front, piece, back, hpieces, hpiece, htext⟩
    have hbefore : before = [','].intercalate ((piecesFrom .start (before ++ ',' :: after)).1 :: front) := by
      rw [intercalate_cons] at htext ⊢
      simpa using htext
    obtain ⟨hscan, hfront⟩ := piecesFrom_before hpieces
    rw [← hbefore] at hscan hfront
    refine ⟨hscan, ?_⟩
    rw [piecesFrom_cut hscan, hfront] at hpieces
    obtain ⟨hnext, -⟩ := List.cons.inj (List.append_cancel_left hpieces)
    rwa [hnext]
  · rintro ⟨hscan, hnamed⟩
    have hscan : before.foldl Scan.next .start = .start := hscan
    rw [piecesFrom_cut hscan]
    refine ⟨_, _, _, rfl, hnamed, ?_⟩
    conv => lhs; rw [← intercalate_piecesFrom .start before]
    rw [intercalate_cons, intercalate_cons]
    simp

/-- The pairs of a flag are those that its value is cut into at the commas outside behind which something is
named, without the quotes around their values.  Nothing is lost, and nothing else is cut. -/
theorem setPairs_isCut (key value : Chars) : ∃ pairs, IsCutOf key value pairs ∧
    setPairs key value = pairs.map fun pair => (pair.1, unquoteChars pair.2) := by
  obtain ⟨hfirst, hnames⟩ := names_pairsFrom (key, (piecesFrom .start value).1) (piecesFrom .start value).2
  refine ⟨rawPairs key value, ⟨hfirst, hnames, ?_, ?_⟩, rfl⟩
  · show pairsText (pairsFrom _ _) = _
    rw [pairsText_pairsFrom]
    conv => rhs; rw [← intercalate_piecesFrom .start value]
    rw [intercalate_cons, intercalate_cons]
    simp
  · rintro before after rfl
    exact cutBehind_rawPairs_iff key before after

/-- Of four commas, only the last one cuts. -/
example : setPairs "a".toList "$(f 1,b=2),'3,4',c=5".toList =
    [("a".toList, "$(f 1,b=2),'3,4'".toList), ("c".toList, "5".toList)] := by
  decide +kernel

end DeployTrace.Shell.Helm
