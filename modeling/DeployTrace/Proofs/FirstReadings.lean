/-
  DeployTrace/Proofs/FirstReadings.lean --- the reading that counts.

  WHAT THIS FILE IS FOR.  Where several readings of a pattern stand, the matcher takes the first one that
  lets the rest succeed.  `Pattern.Takes` says which one that is, for a text that stands in front of
  another one:

      p takes `text` in front of `rest` when the matcher, wherever `text` and then `rest` stand, tries
      `text` before every other reading of p.

  HOW IT IS USED.  It goes along the pattern: of a choice the first side that does not refuse, of a greedy
  run everything up to the end of its set, of a greedy repetition round after round until one refuses.
  What a pattern takes is its match, whatever stands before (`matchBetween_of_takes`), and the list of all
  matches is found by going over a text from one match to the next (`findBetween_take`,
  `findBetween_skip`).  The first match is the one before which there is none (`search_of_first`).
-/
import DeployTrace.Proofs.Readings

set_option autoImplicit false

namespace DeployTrace.Text

namespace Pattern

/-- Where `text` and then `rest` stand, the first way to match reads `text` and marks these parts. -/
def Takes (p : Pattern) (text : Chars) (parts : List (Nat × Chars)) (rest : Chars) : Prop :=
  ∀ (β : Type) (next : Place → Option β) (place : Place), place.rest = text ++ rest →
    (next (place.after text parts)).isSome = true → p.run place next = next (place.after text parts)

/-- No reading of the pattern stands at the start of the text. -/
def Refuses (p : Pattern) (text : Chars) : Prop := ∀ read parts, p.Reads read parts → ¬ read <+: text

variable {p first second body : Pattern} {a b text rest : Chars} {m n parts : List (Nat × Chars)}

/-! ## Refusing -/

theorem Refuses.run_eq_none {β : Type} {next : Place → Option β} {place : Place}
    (h : p.Refuses place.rest) : p.run place next = none := by
  rw [Option.eq_none_iff_forall_ne_some]
  intro found hrun
  obtain ⟨later, hreach, -⟩ := run_sound hrun
  obtain ⟨read, parts, hreads, hstands, -⟩ := hreach.reads_text
  exact h read parts hreads hstands

/-- A pattern refuses a text that does not start as all its readings do. -/
theorem refuses_of_prefix {start : Chars} (hstart : ∀ read parts, p.Reads read parts → start <+: read)
    (h : ¬ start <+: text) : p.Refuses text :=
  fun read parts hreads hstands => h ((hstart read parts hreads).trans hstands)

theorem refuses_word {w : String} (h : ¬ w.toList <+: text) : (word w).Refuses text :=
  refuses_of_prefix (fun _ _ hreads => (reads_word.mp hreads).1 ▸ List.prefix_refl _) h

/-- A run of one character or more refuses a text that starts outside its set. -/
theorem refuses_span1 {accepts : Char → Bool} (h : ∀ c ∈ text.head?, accepts c = false) :
    (span1 accepts).Refuses text := by
  intro read parts hreads ⟨after, hafter⟩
  obtain ⟨hne, hall, -⟩ := reads_span1.mp hreads
  obtain ⟨c, more, rfl⟩ := List.exists_cons_of_ne_nil hne
  have hout : accepts c = false := h c (by rw [← hafter]; rfl)
  rw [hall c List.mem_cons_self] at hout
  cases hout

theorem Refuses.seq {patterns : List Pattern} (h : p.Refuses text) :
    (seq (p :: patterns)).Refuses text := by
  intro read parts hreads hstands
  obtain ⟨x, y, _, _, hx, -, rfl, -⟩ := reads_seq_cons.mp hreads
  exact h x _ hx ((List.prefix_append x y).trans hstands)

theorem Refuses.both (h : first.Refuses text) : (both first second).Refuses text := by
  rintro read parts ⟨x, y, _, _, hx, -, rfl, -⟩ hstands
  exact h x _ hx ((List.prefix_append x y).trans hstands)

theorem Refuses.mark {number : Nat} (h : body.Refuses text) : (mark number body).Refuses text := by
  rintro read parts ⟨inner, hreads, -⟩ hstands
  exact h read inner hreads hstands

theorem refuses_oneOf {patterns : List Pattern} (h : ∀ q ∈ patterns, q.Refuses text) :
    (oneOf patterns).Refuses text := by
  intro read parts hreads hstands
  obtain ⟨q, hq, hreads⟩ := reads_oneOf.mp hreads
  exact h q hq read parts hreads hstands

/-! ## Taking -/

/-- Nothing is taken without moving on. -/
theorem after_nil (place : Place) : place.after [] [] = place := by simp [Place.after]

theorem takes_nothing : nothing.Takes [] [] rest := by
  intro β next place _ _
  rw [after_nil]
  rfl

theorem takes_char {accepts : Char → Bool} {c : Char} (hc : accepts c = true) :
    (char accepts).Takes [c] [] rest := by
  intro β next place hplace _
  have hrest : place.rest = c :: rest := hplace
  rw [← Place.advance_eq_after hrest]
  simp only [run, hrest, hc, if_true]

theorem takes_both (h₁ : first.Takes a m (b ++ rest)) (h₂ : second.Takes b n rest) :
    (both first second).Takes (a ++ b) (n ++ m) rest := by
  intro β next place hplace hnext
  rw [← Place.after_after] at hnext ⊢
  have hmiddle : (place.after a m).rest = b ++ rest := by simp [Place.after, hplace]
  have hsecond := h₂ β next (place.after a m) hmiddle hnext
  have hfirst := h₁ β (fun later => second.run later next) place (by rw [hplace, List.append_assoc])
    (by rw [hsecond]; exact hnext)
  exact hfirst.trans hsecond

theorem takes_left (h : first.Takes text parts rest) : (either first second).Takes text parts rest := by
  intro β next place hplace hnext
  obtain ⟨found, hfound⟩ := Option.isSome_iff_exists.mp hnext
  simp only [run, h β next place hplace hnext, hfound]

theorem takes_right (hrefuses : first.Refuses (text ++ rest)) (h : second.Takes text parts rest) :
    (either first second).Takes text parts rest := by
  intro β next place hplace hnext
  have hnone : first.run place next = none := Refuses.run_eq_none (hplace ▸ hrefuses)
  simp only [run, hnone]
  exact h β next place hplace hnext

/-- A greedy run goes on to the end of its set. -/
theorem takes_span {accepts : Char → Bool} (hall : ∀ c ∈ text, accepts c = true)
    (hend : ∀ c ∈ rest.head?, accepts c = false) : (span true accepts).Takes text [] rest := by
  intro β next place hplace hnext
  have step : ∀ place : Place, place.rest = text ++ rest →
      (next (place.after text [])).isSome = true →
      spanFrom true accepts next (text ++ rest) place = next (place.after text []) := by
    clear hplace hnext
    induction text with
    | nil =>
        intro place _ _
        rw [after_nil]
        cases rest with
        | nil => rfl
        | cons c more =>
            have hc : accepts c = false := hend c rfl
            unfold spanFrom
            simp [hc]
    | cons c more ih =>
        obtain ⟨hc, hmore⟩ := List.forall_mem_cons.mp hall
        intro place hplace hnext
        have hadvance : place.advance c (more ++ rest) = place.after [c] [] :=
          Place.advance_eq_after hplace
        have hlater : (place.after [c] []).after more [] = place.after (c :: more) [] :=
          Place.after_after place [c] more [] []
        have hrest : (place.after [c] []).rest = more ++ rest := by simp [Place.after, hplace]
        have hmoreTaken := ih hmore (place.after [c] []) hrest (by rw [hlater]; exact hnext)
        obtain ⟨found, hfound⟩ := Option.isSome_iff_exists.mp hnext
        rw [List.cons_append]
        unfold spanFrom
        simp only [hc, if_true, hadvance, hmoreTaken, hlater, hfound]
  have hrun : (span true accepts).run place next = spanFrom true accepts next place.rest place := rfl
  rw [hrun, hplace]
  exact step place hplace hnext

theorem takes_mark {number : Nat} (h : body.Takes text parts rest) :
    (mark number body).Takes text ((number, text) :: parts) rest := by
  intro β next place hplace hnext
  have hmarked : { place.after text parts with
      marks := (number, place.upTo (place.after text parts)) :: (place.after text parts).marks } =
        place.after text ((number, text) :: parts) := by
    rw [Place.upTo_after ⟨rest, hplace.symm⟩]
    rfl
  have hbody := h β (fun later => next { later with
    marks := (number, place.upTo later) :: later.marks }) place hplace (by rw [hmarked]; exact hnext)
  rw [hmarked] at hbody
  exact hbody

/-! ### Rounds -/

/-- Every round is taken in front of the ones after it, and after the last one the body refuses. -/
def TakesRounds (body : Pattern) : List (Chars × List (Nat × Chars)) → Chars → Prop
  | [], rest => body.Refuses rest
  | round :: rounds, rest => round.1 ≠ [] ∧
      body.Takes round.1 round.2 ((rounds.map (·.1)).flatten ++ rest) ∧ body.TakesRounds rounds rest

/-- A greedy repetition takes round after round until the body refuses. -/
theorem takes_many {taken : List (Chars × List (Nat × Chars))} (h : body.TakesRounds taken rest) :
    (many true body).Takes (taken.map (·.1)).flatten (taken.reverse.map (·.2)).flatten rest := by
  intro β next place hplace hnext
  -- The rounds that are left over do not matter, if there are enough of them.
  have step : ∀ (left : Nat) (place : Place), place.rest.length ≤ left →
      place.rest = (taken.map (·.1)).flatten ++ rest →
      (next (place.after (taken.map (·.1)).flatten (taken.reverse.map (·.2)).flatten)).isSome = true →
      rounds true (fun place next => body.run place next) left place next =
        next (place.after (taken.map (·.1)).flatten (taken.reverse.map (·.2)).flatten) := by
    clear hplace hnext
    induction taken with
    | nil =>
        intro left place _ hplace _
        have hnil : place.after (([] : List (Chars × List (Nat × Chars))).map (·.1)).flatten
            (([] : List (Chars × List (Nat × Chars))).reverse.map (·.2)).flatten = place := after_nil place
        rw [hnil]
        cases left with
        | zero => rfl
        | succ left =>
            have hrefuses : body.Refuses place.rest := hplace ▸ h
            unfold rounds
            simp only [if_true, hrefuses.run_eq_none]
    | cons round taken ih =>
        obtain ⟨hne, hround, hmore⟩ := h
        intro left place hleft hplace hnext
        have hpos : 0 < round.1.length := List.length_pos_iff.mpr hne
        rw [List.map_cons, List.flatten_cons, List.append_assoc] at hplace
        have hlater : (place.after round.1 round.2).after (taken.map (·.1)).flatten
            (taken.reverse.map (·.2)).flatten = place.after ((round :: taken).map (·.1)).flatten
              ((round :: taken).reverse.map (·.2)).flatten := by
          rw [Place.after_after]
          simp
        have hrest : (place.after round.1 round.2).rest = (taken.map (·.1)).flatten ++ rest := by
          simp [Place.after, hplace]
        have hlength : place.rest.length = round.1.length + (place.after round.1 round.2).rest.length := by
          rw [hrest, hplace, List.length_append]
        cases left with
        | zero => omega
        | succ left =>
            have hrounds := ih hmore left (place.after round.1 round.2) (by omega) hrest
              (by rw [hlater]; exact hnext)
            rw [hlater] at hrounds
            obtain ⟨found, hfound⟩ := Option.isSome_iff_exists.mp hnext
            have hreads : place.index < (place.after round.1 round.2).index := by
              simp only [Place.after]
              omega
            have hbody := hround β (fun later => if place.index < later.index then
              rounds true (fun place next => body.run place next) left later next else none) place hplace
                (by simp only [hreads, if_true, hrounds, hfound, Option.isSome_some])
            simp only [hreads, if_true, hrounds, hfound] at hbody
            unfold rounds
            simp only [if_true, hbody, hfound]
  exact step place.rest.length place (Nat.le_refl _) hplace hnext

/-! ### Built patterns -/

theorem takes_seq_cons {patterns : List Pattern} (h₁ : p.Takes a m (b ++ rest))
    (h₂ : (seq patterns).Takes b n rest) : (seq (p :: patterns)).Takes (a ++ b) (n ++ m) rest := by
  cases patterns with
  | cons q patterns => exact takes_both h₁ h₂
  | nil =>
      -- The empty sequence stays where it is, so that it takes the empty text only.
      have hstay := h₂ Place some { index := 0, before := none, rest := b ++ rest, marks := [] } rfl rfl
      have hplace := Option.some.inj hstay
      have hindex := congrArg Place.index hplace
      have hmarks := congrArg Place.marks hplace
      obtain rfl : b = [] := by simpa [Place.after, eq_comm] using hindex
      obtain rfl : n = [] := by simpa [Place.after, eq_comm] using hmarks
      simpa [seq] using h₁

theorem takes_exactly (text : Chars) : (exactly text).Takes text [] rest := by
  unfold exactly
  induction text with
  | nil => exact takes_nothing
  | cons c more ih =>
      have hfirst : (char (· == c)).Takes [c] [] (more ++ rest) := takes_char (beq_self_eq_true c)
      exact takes_seq_cons hfirst ih

theorem takes_word (w : String) : (word w).Takes w.toList [] rest := takes_exactly w.toList

theorem takes_seq_word {w : String} {patterns : List Pattern} (h : (seq patterns).Takes text parts rest) :
    (seq (word w :: patterns)).Takes (w.toList ++ text) parts rest := by
  have hseq := takes_seq_cons (takes_word w) h
  rwa [List.append_nil] at hseq

/-- A run of one character or more goes on to the end of its set. -/
theorem takes_span1 {accepts : Char → Bool} (hne : text ≠ []) (hall : ∀ c ∈ text, accepts c = true)
    (hend : ∀ c ∈ rest.head?, accepts c = false) : (span1 accepts).Takes text [] rest := by
  obtain ⟨c, more, rfl⟩ := List.exists_cons_of_ne_nil hne
  obtain ⟨hc, hmore⟩ := List.forall_mem_cons.mp hall
  exact takes_both (takes_char hc) (takes_span hmore hend)

theorem takes_oneOf_head {patterns : List Pattern} (h : p.Takes text parts rest) :
    (oneOf (p :: patterns)).Takes text parts rest := by
  cases patterns with
  | nil => exact h
  | cons q patterns => exact takes_left h

theorem takes_oneOf_tail {q : Pattern} {patterns : List Pattern} (hrefuses : p.Refuses (text ++ rest))
    (h : (oneOf (q :: patterns)).Takes text parts rest) :
    (oneOf (p :: q :: patterns)).Takes text parts rest :=
  takes_right hrefuses h

/-- Of a choice the side is taken that all sides before it refuse. -/
theorem takes_oneOf_of_mem {q : Pattern} {patterns : List Pattern} (hq : q ∈ patterns)
    (h : q.Takes text parts rest) (apart : ∀ p ∈ patterns, p = q ∨ p.Refuses (text ++ rest)) :
    (oneOf patterns).Takes text parts rest := by
  induction patterns with
  | nil => cases hq
  | cons p patterns ih =>
      obtain ⟨hfirst, hmore⟩ := List.forall_mem_cons.mp apart
      rcases hfirst with rfl | hrefuses
      · exact takes_oneOf_head h
      · rcases List.mem_cons.mp hq with rfl | hq
        · exact takes_oneOf_head h
        · obtain ⟨next, more, rfl⟩ := List.exists_cons_of_ne_nil (List.ne_nil_of_mem hq)
          exact takes_oneOf_tail hrefuses (ih hq hmore)

/-- An edge between two texts is at the place between them. -/
theorem takes_wordEdge_between (hne : a ≠ []) (hfirst : first.Takes a m (b ++ rest))
    (hsecond : second.Takes b n rest)
    (hedge : (a.getLast?.map isWord).getD false ≠ ((b ++ rest).head?.map isWord).getD false) :
    (both first (both wordEdge second)).Takes (a ++ b) (n ++ m) rest := by
  intro β next place hplace hnext
  rw [← Place.after_after] at hnext ⊢
  have hmiddle : (place.after a m).rest = b ++ rest := by simp [Place.after, hplace]
  have hat : (place.after a m).atWordEdge = true := by
    have hlast : (place.after a m).before = a.getLast? := by
      obtain ⟨c, hc⟩ := Option.ne_none_iff_exists'.mp (fun h => hne (List.getLast?_eq_none_iff.mp h))
      simp [Place.after, hc]
    unfold Place.atWordEdge
    rw [hlast, hmiddle]
    simpa using hedge
  have hstep : (both wordEdge second).run (place.after a m) next = next ((place.after a m).after b n) := by
    have hrun : (both wordEdge second).run (place.after a m) next = second.run (place.after a m) next := by
      simp only [run, hat, if_true]
    rw [hrun]
    exact hsecond β next (place.after a m) hmiddle hnext
  have htakes := hfirst β (fun later => (both wordEdge second).run later next) place
    (by rw [hplace, List.append_assoc]) (by rw [hstep]; exact hnext)
  exact htakes.trans hstep

end Pattern

/-! ## Matches -/

variable {p : Pattern} {text rest before : Chars} {parts : List (Nat × Chars)}

/-- What a pattern takes is its match, whatever stands before. -/
theorem matchBetween_of_takes (h : p.Takes text parts rest) (before : Chars) :
    p.matchBetween before (text ++ rest) =
      some { skipped := before.length, whole := text, marks := parts } := by
  unfold Pattern.matchBetween Pattern.matchAt
  rw [h _ _ _ rfl rfl, Place.upTo_after ⟨rest, rfl⟩]
  simp [Place.after]

theorem matchBetween_of_refuses (h : p.Refuses rest) (before : Chars) :
    p.matchBetween before rest = none := by
  unfold Pattern.matchBetween Pattern.matchAt
  exact h.run_eq_none

/-- All matches in a text of which `before` has been gone over. -/
def Pattern.findBetween (p : Pattern) (before rest : Chars) : List Match :=
  p.findFrom 0 before.length before.getLast? rest

theorem findAll_eq_findBetween (p : Pattern) (text : Chars) : p.findAll text = p.findBetween [] text := rfl

/-- After a match the search goes on behind it. -/
theorem findFrom_skip (p : Pattern) (text before rest : Chars) :
    p.findFrom text.length before.length before.getLast? (text ++ rest) =
      p.findBetween (before ++ text) rest := by
  induction text generalizing before with
  | nil => simp [Pattern.findBetween]
  | cons c more ih =>
      have hmore := ih (before ++ [c])
      rw [List.append_assoc] at hmore
      rw [← List.singleton_append (x := c), ← hmore]
      simp [Pattern.findFrom]

theorem findBetween_take (h : p.Takes text parts rest) (hne : text ≠ []) (before : Chars) :
    p.findBetween before (text ++ rest) =
      { skipped := before.length, whole := text, marks := parts } :: p.findBetween (before ++ text) rest := by
  have hmatch := matchBetween_of_takes h before
  obtain ⟨c, more, rfl⟩ := List.exists_cons_of_ne_nil hne
  have hskip := findFrom_skip p more (before ++ [c]) rest
  rw [List.append_assoc, List.singleton_append] at hskip
  unfold Pattern.matchBetween at hmatch
  rw [← hskip, List.cons_append]
  rw [List.cons_append] at hmatch
  simp [Pattern.findBetween, Pattern.findFrom, hmatch]

/-- The search goes over a character where the pattern refuses. -/
theorem findBetween_skip_char {c : Char} (h : p.Refuses (c :: rest)) (before : Chars) :
    p.findBetween before (c :: rest) = p.findBetween (before ++ [c]) rest := by
  have hnone := matchBetween_of_refuses h before
  unfold Pattern.matchBetween at hnone
  simp [Pattern.findBetween, Pattern.findFrom, hnone]

/-- The search goes over a text in which the pattern refuses everywhere. -/
theorem findBetween_skip {front : Chars} (h : ∀ a b, front = a ++ b → b ≠ [] → p.Refuses (b ++ rest))
    (before : Chars) : p.findBetween before (front ++ rest) = p.findBetween (before ++ front) rest := by
  induction front generalizing before with
  | nil => simp
  | cons c front ih =>
      have hfirst : p.Refuses (c :: (front ++ rest)) := h [] (c :: front) rfl (List.cons_ne_nil c front)
      rw [List.cons_append, findBetween_skip_char hfirst,
        ih (fun a b hfront hne => h (c :: a) b (by rw [hfront]; rfl) hne), List.append_assoc]
      rfl

/-! ## The first match -/

variable {m : Match}

/-- No match of the pattern stands in the text before this place. -/
def Pattern.NoneBefore (p : Pattern) (before rest : Chars) : Prop :=
  ∀ front back, before ++ rest = front ++ back → front.length < before.length →
    p.matchBetween front back = none

theorem searchFrom_of_first (passed : Chars) (htext : before ++ rest = passed ++ text)
    (hpassed : passed.length ≤ before.length) (hmatch : p.matchBetween before rest = some m)
    (hfirst : p.NoneBefore before rest) :
    p.searchFrom passed.length passed.getLast? text = some m := by
  induction text generalizing passed with
  | nil =>
      obtain ⟨rfl, rfl⟩ : before = passed ∧ rest = [] := by
        have hlength := congrArg List.length htext
        simp only [List.length_append, List.length_nil] at hlength
        exact List.append_inj htext (by omega)
      exact hmatch
  | cons c text ih =>
      unfold Pattern.searchFrom
      rcases Nat.lt_or_eq_of_le hpassed with hlt | heq
      · have hnone := hfirst passed (c :: text) htext hlt
        unfold Pattern.matchBetween at hnone
        rw [hnone]
        have hlt : (passed ++ [c]).length ≤ before.length := by
          rw [List.length_append]
          exact hlt
        simpa using ih (passed ++ [c]) (by simpa using htext) hlt
      · obtain ⟨rfl, rfl⟩ := List.append_inj htext heq.symm
        unfold Pattern.matchBetween at hmatch
        rw [hmatch]

/-- The match before which there is none is the first one. -/
theorem search_of_first (hmatch : p.matchBetween before rest = some m) (hfirst : p.NoneBefore before rest) :
    p.search (before ++ rest) = some m := by
  have htext : before ++ rest = [] ++ (before ++ rest) := rfl
  exact searchFrom_of_first [] htext (Nat.zero_le _) hmatch hfirst

theorem exists_first_of_searchFrom (passed : Chars)
    (h : p.searchFrom passed.length passed.getLast? text = some m)
    (hpassed : p.NoneBefore passed text) :
    ∃ before rest, passed ++ text = before ++ rest ∧ p.matchBetween before rest = some m ∧
      p.NoneBefore before rest := by
  induction text generalizing passed with
  | nil => exact ⟨passed, [], rfl, h, hpassed⟩
  | cons c text ih =>
      unfold Pattern.searchFrom at h
      split at h
      · rename_i hfound
        exact ⟨passed, c :: text, rfl, hfound.trans h, hpassed⟩
      · rename_i hnone
        have hmore : p.NoneBefore (passed ++ [c]) text := by
          intro front back hsplit hlt
          rw [List.append_assoc, List.singleton_append] at hsplit
          rw [List.length_append, List.length_singleton] at hlt
          rcases Nat.lt_or_eq_of_le (Nat.le_of_lt_succ hlt) with hlt | heq
          · exact hpassed front back hsplit hlt
          · obtain ⟨rfl, rfl⟩ := List.append_inj hsplit heq.symm
            exact hnone
        obtain ⟨before, rest, hsplit, hmatch⟩ := ih (passed ++ [c]) (by simpa using h) hmore
        exact ⟨before, rest, by simpa using hsplit, hmatch⟩

/-- Before the first match there is none. -/
theorem exists_first_of_search (h : p.search text = some m) :
    ∃ before rest, text = before ++ rest ∧ p.matchBetween before rest = some m ∧ p.NoneBefore before rest :=
  exists_first_of_searchFrom [] h fun _ _ _ hlt => absurd hlt (Nat.not_lt_zero _)

theorem search_eq_none (h : ∀ a b, text = a ++ b → p.Refuses b) : p.search text = none := by
  cases hsearch : p.search text with
  | none => rfl
  | some m =>
      obtain ⟨before, rest, hsplit, hmatch⟩ := exists_of_search hsearch
      rw [matchBetween_of_refuses (h before rest hsplit)] at hmatch
      cases hmatch

end DeployTrace.Text
