/-
  DeployTrace/Proofs/Readings.lean --- the texts a pattern reads.

  WHAT THIS FILE IS FOR.  `Pattern.Reaches` leads from place to place, and a place knows the whole text.
  What a pattern can read does not depend on that: it is a text with some of its parts marked,
  `Pattern.Reads`, and for a given pattern that is an equation between texts.

      Whatever a match holds is a reading of its pattern, and the match stands in the text.

      Where a reading stands in a text, the pattern has a match there.

  The second needs a pattern WITHOUT EDGES, since an edge depends on what stands around the reading.
  The match found there may be another one: which way of reading counts is not said here.
-/
import DeployTrace.Proofs.Matching

set_option autoImplicit false

namespace DeployTrace.Text

open Pattern (Reaches)

theorem eq_false_of_any {accepts : Char → Bool} {text : Chars} (h : text.any accepts = false) :
    ∀ c ∈ text, accepts c = false := fun c hc => Bool.eq_false_iff.mpr (List.any_eq_false.mp h c hc)

/-! ## The matcher misses no way -/

section

variable {β : Type} {next : Place → Option β}

theorem isSome_spanFrom {greedy : Bool} {accepts : Char → Bool} {place later : Place}
    (h : Reaches (.span greedy accepts) place later) (hnext : (next later).isSome = true) :
    (spanFrom greedy accepts next place.rest place).isSome = true := by
  generalize hp : Pattern.span greedy accepts = p at h
  induction h with
  | @spanStop greedy' accepts' place =>
      cases hp
      cases place.rest <;> unfold spanFrom <;> grind
  | @spanStep greedy' accepts' place later c rest hrest hc more ih =>
      cases hp
      have hmore : (spanFrom greedy accepts next rest (place.advance c rest)).isSome = true := ih hnext rfl
      rw [hrest]
      unfold spanFrom
      grind
  | _ => cases hp

theorem isSome_rounds {greedy : Bool} {body : Pattern}
    (complete : ∀ {place later : Place} {next : Place → Option β}, Reaches body place later →
      (next later).isSome = true → (body.run place next).isSome = true)
    {left : Nat} {place later : Place} (hleft : place.rest.length ≤ left)
    (h : Reaches (.many greedy body) place later) (hnext : (next later).isSome = true) :
    (rounds greedy (fun place next => body.run place next) left place next).isSome = true := by
  generalize hp : Pattern.many greedy body = p at h
  induction h generalizing left with
  | @manyStop greedy' body' place =>
      cases hp
      cases left <;> unfold rounds <;> grind
  | @manyStep greedy' body' place middle later round hreads more ihRound ihMore =>
      cases hp
      have hlength := round.index_le.2
      cases left with
      | zero => omega
      | succ left =>
          have hround : (body.run place fun later => if place.index < later.index then
              rounds greedy (fun place next => body.run place next) left later next else none).isSome =
                true := by
            refine complete round ?_
            simp only [hreads, if_true]
            exact ihMore (by omega) hnext rfl
          unfold rounds
          grind
  | _ => cases hp

/-- Where a pattern can read the text up to a place after which the rest succeeds, the matcher succeeds. -/
theorem Pattern.isSome_run {p : Pattern} {place later : Place} (h : p.Reaches place later)
    (hnext : (next later).isSome = true) : (p.run place next).isSome = true := by
  induction p generalizing place later next with
  | nothing =>
      cases h
      exact hnext
  | char accepts =>
      cases h with
      | char hrest hc =>
          unfold run
          simp only [hrest, hc, if_true]
          exact hnext
  | span greedy accepts => exact isSome_spanFrom h hnext
  | both first second ihFirst ihSecond =>
      cases h with
      | both h₁ h₂ => exact ihFirst h₁ (ihSecond h₂ hnext)
  | either first second ihFirst ihSecond =>
      unfold run
      cases h with
      | left h =>
          have hfirst := ihFirst h hnext
          grind
      | right h =>
          have hsecond := ihSecond h hnext
          grind
  | many greedy body ih => exact isSome_rounds ih (Nat.le_refl _) h hnext
  | mark number body ih =>
      cases h with
      | mark h => exact ih h hnext
  | wordEdge =>
      cases h with
      | wordEdge hedge => simpa [run, hedge] using hnext
  | lineStart =>
      cases h with
      | lineStart hstart => simpa [run, hstart] using hnext
  | textStart =>
      cases h with
      | textStart hstart => simpa [run, hstart] using hnext
  | textEnd =>
      cases h with
      | textEnd hend => simpa [run, hend] using hnext

/-- A greedy run in front of what always succeeds stops only where the set ends. -/
theorem spanFrom_longest {accepts : Char → Bool} {text : Chars} {place : Place} {found : β}
    (total : ∀ later, (next later).isSome = true) (htext : place.rest = text)
    (h : spanFrom true accepts next text place = some found) :
    ∃ later, Reaches (.span true accepts) place later ∧ next later = some found ∧
      ∀ c ∈ later.rest.head?, accepts c = false := by
  induction text generalizing place with
  | nil => exact ⟨place, .spanStop, h, by simp [htext]⟩
  | cons c rest ih =>
      unfold spanFrom at h
      cases hc : accepts c with
      | false =>
          simp only [hc, Bool.false_eq_true, if_false, if_true] at h
          refine ⟨place, .spanStop, h, ?_⟩
          simp [htext, hc]
      | true =>
          have hstop : Reaches (.span true accepts) (place.advance c rest) (place.advance c rest) :=
            .spanStop
          have hmore : (spanFrom true accepts next rest (place.advance c rest)).isSome = true :=
            isSome_spanFrom hstop (total _)
          obtain ⟨other, hother⟩ := Option.isSome_iff_exists.mp hmore
          simp only [hc, if_true, hother, Option.some.injEq] at h
          obtain ⟨later, hreach, hnext, hend⟩ := ih rfl (h ▸ hother)
          exact ⟨later, .spanStep htext hc hreach, hnext, hend⟩

end

/-! ## Readings -/

/-- A pattern can read a text, marking these parts of it, latest first.  An edge reads nothing. -/
def Pattern.Reads : Pattern → Chars → List (Nat × Chars) → Prop
  | .char accepts, text, parts => ∃ c, accepts c = true ∧ text = [c] ∧ parts = []
  | .span _ accepts, text, parts => (∀ c ∈ text, accepts c = true) ∧ parts = []
  | .both first second, text, parts => ∃ a b m n, first.Reads a m ∧ second.Reads b n ∧
      text = a ++ b ∧ parts = n ++ m
  | .either first second, text, parts => first.Reads text parts ∨ second.Reads text parts
  | .many _ body, text, parts => ∃ rounds : List (Chars × List (Nat × Chars)),
      (∀ r ∈ rounds, r.1 ≠ [] ∧ body.Reads r.1 r.2) ∧
        text = (rounds.map (·.1)).flatten ∧ parts = (rounds.reverse.map (·.2)).flatten
  | .mark number body, text, parts => ∃ inner, body.Reads text inner ∧ parts = (number, text) :: inner
  | _, text, parts => text = [] ∧ parts = []

/-- Whether a pattern has no edges: what it reads does not depend on what stands around it. -/
def Pattern.edgeless : Pattern → Bool
  | both first second => first.edgeless && second.edgeless
  | either first second => first.edgeless && second.edgeless
  | many _ body => body.edgeless
  | mark _ body => body.edgeless
  | wordEdge | lineStart | textStart | textEnd => false
  | _ => true

/-- The place after a text that stands at a place, with the parts marked in it. -/
def Place.after (place : Place) (text : Chars) (parts : List (Nat × Chars)) : Place :=
  { index := place.index + text.length, before := text.getLast?.or place.before,
    rest := place.rest.drop text.length, marks := parts ++ place.marks }

theorem Place.after_after (place : Place) (a b : Chars) (m n : List (Nat × Chars)) :
    (place.after a m).after b n = place.after (a ++ b) (n ++ m) := by
  simp [after, List.getLast?_append, Option.or_assoc, Nat.add_assoc]

theorem Place.advance_eq_after {place : Place} {c : Char} {rest : Chars} (h : place.rest = c :: rest) :
    place.advance c rest = place.after [c] [] := by
  simp [advance, after, h]

theorem Place.upTo_after {place : Place} {text : Chars} {parts : List (Nat × Chars)}
    (h : text <+: place.rest) : place.upTo (place.after text parts) = text := by
  obtain ⟨rest, hrest⟩ := h
  simp [upTo, after, ← hrest]

/-- What stands after the first of two texts at a place. -/
theorem Place.append_isPrefix_iff {place : Place} {a b : Chars} (m : List (Nat × Chars)) :
    a ++ b <+: place.rest ↔ a <+: place.rest ∧ b <+: (place.after a m).rest := by
  constructor
  · rintro ⟨rest, hrest⟩
    refine ⟨⟨b ++ rest, by simpa using hrest⟩, ⟨rest, ?_⟩⟩
    simp [after, ← hrest]
  · rintro ⟨⟨rest, hrest⟩, more⟩
    simp only [after, ← hrest, List.drop_left] at more
    obtain ⟨tail, rfl⟩ := more
    exact ⟨tail, by simpa using hrest⟩

/-- However a pattern reads, what it reads is a reading that stands at the place. -/
theorem Pattern.Reaches.reads_text {p : Pattern} {place later : Place} (h : p.Reaches place later) :
    ∃ text parts, p.Reads text parts ∧ text <+: place.rest ∧ later = place.after text parts := by
  induction h with
  | nothing | wordEdge | lineStart | textStart | textEnd =>
      exact ⟨[], [], ⟨rfl, rfl⟩, List.nil_prefix, rfl⟩
  | char hrest hc =>
      refine ⟨_, [], ⟨_, hc, rfl, rfl⟩, ?_, Place.advance_eq_after hrest⟩
      simp [hrest]
  | spanStop => exact ⟨[], [], ⟨by simp, rfl⟩, List.nil_prefix, rfl⟩
  | @spanStep greedy accepts place later c rest hrest hc more ih =>
      obtain ⟨text, parts, ⟨htext, rfl⟩, hstands, rfl⟩ := ih
      rw [Place.advance_eq_after hrest] at hstands ⊢
      refine ⟨c :: text, [], ⟨List.forall_mem_cons.mpr ⟨hc, htext⟩, rfl⟩, ?_, ?_⟩
      · exact (Place.append_isPrefix_iff []).mpr ⟨by simp [hrest], hstands⟩
      · exact Place.after_after place [c] text [] []
  | both h₁ h₂ ih₁ ih₂ =>
      obtain ⟨a, m, hfirst, hstands₁, rfl⟩ := ih₁
      obtain ⟨b, n, hsecond, hstands₂, rfl⟩ := ih₂
      refine ⟨a ++ b, n ++ m, ⟨a, b, m, n, hfirst, hsecond, rfl, rfl⟩, ?_, ?_⟩
      · exact (Place.append_isPrefix_iff m).mpr ⟨hstands₁, hstands₂⟩
      · exact Place.after_after _ a b m n
  | left h ih =>
      obtain ⟨text, parts, hreads, hstands, hlater⟩ := ih
      exact ⟨text, parts, Or.inl hreads, hstands, hlater⟩
  | right h ih =>
      obtain ⟨text, parts, hreads, hstands, hlater⟩ := ih
      exact ⟨text, parts, Or.inr hreads, hstands, hlater⟩
  | manyStop => exact ⟨[], [], ⟨[], by simp, rfl, rfl⟩, List.nil_prefix, rfl⟩
  | @manyStep greedy body place middle later round hreads more ihRound ihMore =>
      obtain ⟨a, m, hround, hstands₁, rfl⟩ := ihRound
      obtain ⟨b, n, ⟨rounds, hrounds, rfl, rfl⟩, hstands₂, rfl⟩ := ihMore
      have hne : a ≠ [] := by
        rintro rfl
        simp [Place.after] at hreads
      refine ⟨_, _, ⟨(a, m) :: rounds, List.forall_mem_cons.mpr ⟨⟨hne, hround⟩, hrounds⟩, rfl, rfl⟩,
        (Place.append_isPrefix_iff m).mpr ⟨hstands₁, hstands₂⟩, ?_⟩
      rw [Place.after_after]
      simp
  | mark h ih =>
      obtain ⟨text, parts, hreads, hstands, rfl⟩ := ih
      refine ⟨text, (_, text) :: parts, ⟨parts, hreads, rfl⟩, hstands, ?_⟩
      rw [Place.upTo_after hstands]
      rfl

/-- A pattern without edges reads its readings wherever they stand. -/
theorem Pattern.Reads.reaches {p : Pattern} {text : Chars} {parts : List (Nat × Chars)}
    (h : p.Reads text parts) (edgeless : p.edgeless = true) {place : Place}
    (hstands : text <+: place.rest) : p.Reaches place (place.after text parts) := by
  induction p generalizing text parts place with
  | nothing =>
      obtain ⟨rfl, rfl⟩ := h
      exact .nothing
  | char accepts =>
      obtain ⟨c, hc, rfl, rfl⟩ := h
      obtain ⟨rest, hrest⟩ := hstands
      rw [← Place.advance_eq_after hrest.symm]
      exact .char hrest.symm hc
  | span greedy accepts =>
      obtain ⟨hall, rfl⟩ := h
      induction text generalizing place with
      | nil => exact .spanStop
      | cons c text ih =>
          obtain ⟨hc, htext⟩ := List.forall_mem_cons.mp hall
          obtain ⟨hfirst, hmore⟩ := (Place.append_isPrefix_iff (a := [c]) []).mp hstands
          obtain ⟨rest, hrest⟩ := hfirst
          refine .spanStep hrest.symm hc ?_
          rw [Place.advance_eq_after hrest.symm]
          have := ih hmore htext
          rwa [Place.after_after] at this
  | both first second ihFirst ihSecond =>
      obtain ⟨a, b, m, n, hfirst, hsecond, rfl, rfl⟩ := h
      simp only [Pattern.edgeless, Bool.and_eq_true] at edgeless
      obtain ⟨hstands₁, hstands₂⟩ := (Place.append_isPrefix_iff m).mp hstands
      rw [← Place.after_after]
      exact .both (ihFirst hfirst edgeless.1 hstands₁) (ihSecond hsecond edgeless.2 hstands₂)
  | either first second ihFirst ihSecond =>
      simp only [Pattern.edgeless, Bool.and_eq_true] at edgeless
      rcases h with h | h
      · exact .left (ihFirst h edgeless.1 hstands)
      · exact .right (ihSecond h edgeless.2 hstands)
  | many greedy body ih =>
      obtain ⟨rounds, hrounds, rfl, rfl⟩ := h
      induction rounds generalizing place with
      | nil => exact .manyStop
      | cons r rounds ihRounds =>
          obtain ⟨⟨hne, hread⟩, hrounds⟩ := List.forall_mem_cons.mp hrounds
          obtain ⟨hstands₁, hstands₂⟩ := (Place.append_isPrefix_iff r.2).mp hstands
          have more := ihRounds hrounds hstands₂
          rw [Place.after_after] at more
          have hlength : 0 < r.1.length := List.length_pos_iff.mpr hne
          have round : body.Reaches place (place.after r.1 r.2) := ih hread edgeless hstands₁
          refine .manyStep round (by simp only [Place.after]; omega) ?_
          simpa using more
  | mark number body ih =>
      obtain ⟨inner, hread, rfl⟩ := h
      have hreach : Reaches (.mark number body) place _ := .mark (ih hread edgeless hstands)
      rw [Place.upTo_after hstands] at hreach
      exact hreach
  | wordEdge | lineStart | textStart | textEnd => simp [Pattern.edgeless] at edgeless

/-- Marked parts stand in what is read. -/
theorem Pattern.Reads.part_stands {p : Pattern} {text : Chars} {parts : List (Nat × Chars)}
    (h : p.Reads text parts) : ∀ part ∈ parts, part.2 <:+: text := by
  induction p generalizing text parts with
  | nothing | wordEdge | lineStart | textStart | textEnd =>
      obtain ⟨-, rfl⟩ := h
      simp
  | char accepts =>
      obtain ⟨c, -, -, rfl⟩ := h
      simp
  | span greedy accepts =>
      obtain ⟨-, rfl⟩ := h
      simp
  | both first second ihFirst ihSecond =>
      obtain ⟨a, b, m, n, hfirst, hsecond, rfl, rfl⟩ := h
      intro part hpart
      rcases List.mem_append.mp hpart with hpart | hpart
      · exact (ihSecond hsecond part hpart).trans (List.suffix_append a b).isInfix
      · exact (ihFirst hfirst part hpart).trans (List.prefix_append a b).isInfix
  | either first second ihFirst ihSecond =>
      rcases h with h | h
      · exact ihFirst h
      · exact ihSecond h
  | many greedy body ih =>
      obtain ⟨rounds, hrounds, rfl, rfl⟩ := h
      intro part hpart
      obtain ⟨parts, hparts, hpart⟩ := List.mem_flatten.mp hpart
      obtain ⟨r, hr, rfl⟩ := List.mem_map.mp hparts
      have hr : r ∈ rounds := List.mem_reverse.mp hr
      have hround : r.1 <:+: (rounds.map (·.1)).flatten :=
        List.infix_of_mem_flatten (List.mem_map_of_mem hr)
      exact (ih (hrounds r hr).2 part hpart).trans hround
  | mark number body ih =>
      obtain ⟨inner, hread, rfl⟩ := h
      intro part hpart
      rcases List.mem_cons.mp hpart with rfl | hpart
      · exact List.infix_refl text
      · exact ih hread part hpart

/-- A pattern that reads something has no empty reading. -/
theorem Pattern.Reads.ne_nil {p : Pattern} {text : Chars} {parts : List (Nat × Chars)}
    (h : p.Reads text parts) (hreads : p.reads = true) : text ≠ [] := by
  induction p generalizing text parts with
  | char accepts =>
      obtain ⟨c, -, rfl, -⟩ := h
      exact List.cons_ne_nil c []
  | both first second ihFirst ihSecond =>
      obtain ⟨a, b, m, n, hfirst, hsecond, rfl, -⟩ := h
      simp only [reads, Bool.or_eq_true] at hreads
      rcases hreads with hreads | hreads
      · exact List.append_ne_nil_of_left_ne_nil (ihFirst hfirst hreads) b
      · exact List.append_ne_nil_of_right_ne_nil a (ihSecond hsecond hreads)
  | either first second ihFirst ihSecond =>
      simp only [reads, Bool.and_eq_true] at hreads
      exact h.elim (ihFirst · hreads.1) (ihSecond · hreads.2)
  | mark number body ih =>
      obtain ⟨inner, hread, -⟩ := h
      exact ih hread hreads
  | nothing | span | many | wordEdge | lineStart | textStart | textEnd => simp [reads] at hreads

/-! ## Readings of built patterns -/

namespace Pattern

variable {text : Chars} {parts : List (Nat × Chars)}

theorem reads_seq_cons {p : Pattern} {rest : List Pattern} :
    (seq (p :: rest)).Reads text parts ↔ ∃ a b m n, p.Reads a m ∧ (seq rest).Reads b n ∧
      text = a ++ b ∧ parts = n ++ m := by
  cases rest with
  | cons q rest => exact Iff.rfl
  | nil =>
      constructor
      · exact fun h => ⟨text, [], parts, [], h, ⟨rfl, rfl⟩, by simp, rfl⟩
      · rintro ⟨a, b, m, n, h, ⟨rfl, rfl⟩, rfl, rfl⟩
        rw [List.append_nil]
        exact h

theorem reads_oneOf {patterns : List Pattern} :
    (oneOf patterns).Reads text parts ↔ ∃ p ∈ patterns, p.Reads text parts := by
  induction patterns with
  | nil => simp [oneOf, Reads]
  | cons p rest ih =>
      cases rest with
      | nil => simp [oneOf]
      | cons q rest =>
          have hsplit : (oneOf (p :: q :: rest)).Reads text parts ↔
              p.Reads text parts ∨ (oneOf (q :: rest)).Reads text parts := Iff.rfl
          rw [hsplit, ih]
          simp

theorem reads_exactly {exact : Chars} : (exactly exact).Reads text parts ↔ text = exact ∧ parts = [] := by
  unfold exactly
  induction exact generalizing text parts with
  | nil => exact Iff.rfl
  | cons c rest ih =>
      rw [List.map_cons, reads_seq_cons]
      constructor
      · rintro ⟨a, b, m, n, ⟨d, hd, rfl, rfl⟩, h, rfl, rfl⟩
        obtain ⟨rfl, rfl⟩ := ih.mp h
        exact ⟨by simpa using hd, rfl⟩
      · rintro ⟨rfl, rfl⟩
        exact ⟨[c], rest, [], [], ⟨c, by simp, rfl, rfl⟩, ih.mpr ⟨rfl, rfl⟩, rfl, rfl⟩

theorem reads_word {word : String} :
    (Pattern.word word).Reads text parts ↔ text = word.toList ∧ parts = [] :=
  reads_exactly

theorem reads_span1 {accepts : Char → Bool} :
    (span1 accepts).Reads text parts ↔ text ≠ [] ∧ (∀ c ∈ text, accepts c = true) ∧ parts = [] := by
  constructor
  · rintro ⟨a, b, m, n, ⟨c, hc, rfl, rfl⟩, ⟨hb, rfl⟩, rfl, rfl⟩
    exact ⟨by simp, by simpa using ⟨hc, hb⟩, rfl⟩
  · rintro ⟨hne, hall, rfl⟩
    obtain ⟨c, rest, rfl⟩ := List.exists_cons_of_ne_nil hne
    obtain ⟨hc, hrest⟩ := List.forall_mem_cons.mp hall
    exact ⟨[c], rest, [], [], ⟨c, hc, rfl, rfl⟩, ⟨hrest, rfl⟩, rfl, rfl⟩

theorem reads_optional {p : Pattern} :
    (optional p).Reads text parts ↔ p.Reads text parts ∨ (text = [] ∧ parts = []) := Iff.rfl

/-- A repetition reads nothing, or a first round and a repetition. -/
theorem reads_many {greedy : Bool} {body : Pattern} (h : (many greedy body).Reads text parts) :
    (text = [] ∧ parts = []) ∨ ∃ a b m n, body.Reads a m ∧ (many greedy body).Reads b n ∧
      text = a ++ b ∧ parts = n ++ m := by
  obtain ⟨rounds, hrounds, rfl, rfl⟩ := h
  cases rounds with
  | nil => exact Or.inl ⟨rfl, rfl⟩
  | cons r rounds =>
      obtain ⟨⟨-, hround⟩, hrounds⟩ := List.forall_mem_cons.mp hrounds
      exact Or.inr ⟨r.1, _, r.2, _, hround, ⟨rounds, hrounds, rfl, rfl⟩, rfl, by simp⟩

/-- Whether a pattern marks no part. -/
def unmarked : Pattern → Bool
  | both first second => first.unmarked && second.unmarked
  | either first second => first.unmarked && second.unmarked
  | many _ body => body.unmarked
  | mark _ _ => false
  | _ => true

theorem Reads.parts_eq_nil {p : Pattern} (h : p.Reads text parts) (unmarked : p.unmarked = true) :
    parts = [] := by
  induction p generalizing text parts with
  | nothing | wordEdge | lineStart | textStart | textEnd => exact h.2
  | char accepts =>
      obtain ⟨c, -, -, rfl⟩ := h
      rfl
  | span greedy accepts => exact h.2
  | both first second ihFirst ihSecond =>
      obtain ⟨a, b, m, n, hfirst, hsecond, -, rfl⟩ := h
      simp only [Pattern.unmarked, Bool.and_eq_true] at unmarked
      rw [ihFirst hfirst unmarked.1, ihSecond hsecond unmarked.2]
      rfl
  | either first second ihFirst ihSecond =>
      simp only [Pattern.unmarked, Bool.and_eq_true] at unmarked
      rcases h with h | h
      · exact ihFirst h unmarked.1
      · exact ihSecond h unmarked.2
  | many greedy body ih =>
      obtain ⟨rounds, hrounds, -, rfl⟩ := h
      refine List.flatten_eq_nil_iff.mpr fun m hm => ?_
      obtain ⟨r, hr, rfl⟩ := List.mem_map.mp hm
      exact ih (hrounds r (List.mem_reverse.mp hr)).2 unmarked
  | mark number body ih => simp [Pattern.unmarked] at unmarked

/-- The parts of a sequence are those of its rest when the first pattern marks none. -/
theorem reads_seq_of_unmarked {p : Pattern} {rest : List Pattern} (unmarked : p.unmarked = true) :
    (seq (p :: rest)).Reads text parts ↔
      ∃ a b, p.Reads a [] ∧ (seq rest).Reads b parts ∧ text = a ++ b := by
  rw [reads_seq_cons]
  constructor
  · rintro ⟨a, b, m, n, ha, hb, rfl, rfl⟩
    obtain rfl := ha.parts_eq_nil unmarked
    exact ⟨a, b, ha, by simpa using hb, rfl⟩
  · rintro ⟨a, b, ha, hb, rfl⟩
    exact ⟨a, b, [], parts, ha, hb, rfl, by simp⟩

theorem unmarked_word (word : String) : (Pattern.word word).unmarked = true := by
  unfold Pattern.word exactly
  generalize word.toList = text
  induction text with
  | nil => rfl
  | cons c rest ih =>
      cases rest with
      | nil => rfl
      | cons d rest => exact ih

theorem reads_seq_word {word : String} {rest : List Pattern} :
    (seq (Pattern.word word :: rest)).Reads text parts ↔
      ∃ b, (seq rest).Reads b parts ∧ text = word.toList ++ b := by
  rw [reads_seq_of_unmarked (unmarked_word word)]
  constructor
  · rintro ⟨a, b, ha, hb, rfl⟩
    obtain ⟨rfl, -⟩ := reads_word.mp ha
    exact ⟨b, hb, rfl⟩
  · rintro ⟨b, hb, rfl⟩
    exact ⟨word.toList, b, reads_word.mpr ⟨rfl, rfl⟩, hb, rfl⟩

end Pattern

/-! ## Matches -/

/-- The match of a pattern where a text falls into `before` and `rest`. -/
def Pattern.matchBetween (p : Pattern) (before rest : Chars) : Option Match :=
  p.matchAt before.length before.getLast? rest

section

variable {p : Pattern} {before rest : Chars} {m : Match}

/-- What a match holds stands at its place and is a reading of its pattern. -/
theorem reads_of_matchBetween (h : p.matchBetween before rest = some m) :
    m.whole <+: rest ∧ p.Reads m.whole m.marks := by
  unfold Pattern.matchBetween Pattern.matchAt at h
  obtain ⟨later, hreach, hlater⟩ := Pattern.run_sound h
  obtain ⟨whole, parts, hreads, hstands, rfl⟩ := hreach.reads_text
  cases hlater
  rw [Place.upTo_after hstands]
  refine ⟨hstands, ?_⟩
  simpa [Place.after] using hreads

/-- A part of a match stands in it. -/
theorem Match.part_stands (h : p.Reads m.whole m.marks) (n : Nat) : m.part n <:+: m.whole := by
  unfold Match.part Match.part?
  cases hpart : m.marks.lookup n with
  | none => exact List.nil_infix
  | some part =>
      obtain ⟨before, after, hmarks, -⟩ := List.lookup_eq_some_iff.mp hpart
      exact h.part_stands (n, part) (by simp [hmarks])

/-- Where a reading of a pattern without edges stands, there is a match. -/
theorem isSome_matchBetween {text : Chars} {parts : List (Nat × Chars)} (h : p.Reads text parts)
    (edgeless : p.edgeless = true) (hstands : text <+: rest) (before : Chars) :
    (p.matchBetween before rest).isSome = true :=
  Pattern.isSome_run (h.reaches edgeless hstands) rfl

/-- A match of a pattern that ends in a greedy run of a set ends where the set ends. -/
theorem longest_of_matchBetween {number : Nat} {starts accepts : Char → Bool}
    (h : (Pattern.both p (.mark number (.both (.char starts) (.span true accepts)))).matchBetween
      before rest = some m) :
    ∃ after, rest = m.whole ++ after ∧ ∀ c ∈ after.head?, accepts c = false := by
  unfold Pattern.matchBetween Pattern.matchAt at h
  rw [Pattern.run] at h
  obtain ⟨middle, hfirst, h⟩ := Pattern.run_sound h
  rw [Pattern.run, Pattern.run] at h
  obtain ⟨inside, hstart, h⟩ := Pattern.run_sound h
  obtain ⟨later, hrun, hlater, hend⟩ := spanFrom_longest (fun _ => rfl) rfl h
  have hreach := Reaches.both hfirst (.both hstart hrun)
  obtain ⟨text, parts, -, hstands, rfl⟩ := hreach.reads_text
  have hwhole : text = m.whole :=
    (@Place.upTo_after _ text parts hstands).symm.trans (congrArg Match.whole (Option.some.inj hlater))
  obtain ⟨after, htext⟩ := hstands
  have hdrop : rest.drop text.length = after := by
    rw [show rest = text ++ after from htext.symm, List.drop_left]
  refine ⟨after, hwhole ▸ htext.symm, ?_⟩
  intro c hc
  rw [← hdrop] at hc
  exact hend c hc

/-- A pattern that starts at the edge of a word matches where such an edge is. -/
theorem matchBetween_wordEdge (hbefore : ∀ c ∈ before.getLast?, isWord c = false) {d : Char}
    (hrest : rest.head? = some d) (hd : isWord d = true) :
    (Pattern.both .wordEdge p).matchBetween before rest = p.matchBetween before rest := by
  have hedge : Place.atWordEdge
      { index := before.length, before := before.getLast?, rest := rest, marks := [] } = true := by
    cases hlast : before.getLast? with
    | none => simp [Place.atWordEdge, hrest, hd]
    | some c => simp [Place.atWordEdge, hbefore c hlast, hrest, hd]
  unfold Pattern.matchBetween Pattern.matchAt
  simp only [Pattern.run, hedge, if_true]

/-- A match stands further on than a place that has none, if it does not stand before. -/
theorem length_lt_of_no_match {passed text : Chars} (htext : before ++ rest = passed ++ text)
    (hpassed : passed.length ≤ before.length) (h : (p.matchBetween before rest).isSome = true)
    (hnone : p.matchBetween passed text = none) : passed.length < before.length := by
  refine Nat.lt_of_le_of_ne hpassed fun heq => ?_
  obtain ⟨rfl, rfl⟩ := List.append_inj htext heq.symm
  rw [hnone] at h
  simp at h

/-! ### The first match -/

theorem exists_of_searchFrom {text : Chars} (passed : Chars)
    (h : p.searchFrom passed.length passed.getLast? text = some m) :
    ∃ before rest, passed ++ text = before ++ rest ∧ p.matchBetween before rest = some m := by
  induction text generalizing passed with
  | nil => exact ⟨passed, [], rfl, h⟩
  | cons c text ih =>
      unfold Pattern.searchFrom at h
      split at h
      · rename_i hfound
        exact ⟨passed, c :: text, rfl, hfound.trans h⟩
      · obtain ⟨before, rest, hsplit, hmatch⟩ := ih (passed ++ [c]) (by simpa using h)
        exact ⟨before, rest, by simpa using hsplit, hmatch⟩

theorem exists_of_search {text : Chars} (h : p.search text = some m) :
    ∃ before rest, text = before ++ rest ∧ p.matchBetween before rest = some m :=
  exists_of_searchFrom [] h

theorem isSome_searchFrom {text : Chars} (passed : Chars) (htext : before ++ rest = passed ++ text)
    (hpassed : passed.length ≤ before.length) (h : (p.matchBetween before rest).isSome = true) :
    (p.searchFrom passed.length passed.getLast? text).isSome = true := by
  induction text generalizing passed with
  | nil =>
      obtain ⟨rfl, rfl⟩ : before = passed ∧ rest = [] := by
        have hlength := congrArg List.length htext
        simp only [List.length_append, List.length_nil] at hlength
        exact List.append_inj htext (by omega)
      exact h
  | cons c text ih =>
      unfold Pattern.searchFrom
      split
      · rfl
      · rename_i hnone
        have hlt : (passed ++ [c]).length ≤ before.length := by
          rw [List.length_append]
          exact length_lt_of_no_match htext hpassed h hnone
        simpa using ih (passed ++ [c]) (by simpa using htext) hlt

/-- A pattern that matches somewhere in a text occurs in it. -/
theorem occursIn_of_matchBetween (h : (p.matchBetween before rest).isSome = true) :
    p.occursIn (before ++ rest) = true := by
  have htext : before ++ rest = [] ++ (before ++ rest) := rfl
  exact isSome_searchFrom [] htext (Nat.zero_le _) h

/-! ### All matches -/

theorem exists_of_mem_findFrom {text : Chars} (skip : Nat) (passed : Chars)
    (h : m ∈ p.findFrom skip passed.length passed.getLast? text) :
    ∃ before rest, passed ++ text = before ++ rest ∧ p.matchBetween before rest = some m := by
  induction text generalizing skip passed with
  | nil => simp [Pattern.findFrom] at h
  | cons c text ih =>
      have later : ∀ skip, m ∈ p.findFrom skip (passed.length + 1) (some c) text →
          ∃ before rest, passed ++ c :: text = before ++ rest ∧ p.matchBetween before rest = some m := by
        intro skip h
        obtain ⟨before, rest, hsplit, hmatch⟩ := ih skip (passed ++ [c]) (by simpa using h)
        exact ⟨before, rest, by simpa using hsplit, hmatch⟩
      cases skip with
      | succ skip => exact later skip h
      | zero =>
          unfold Pattern.findFrom at h
          split at h
          · rename_i hfound
            rcases List.mem_cons.mp h with rfl | h
            · exact ⟨passed, c :: text, rfl, hfound⟩
            · exact later _ h
          · exact later 0 h

theorem exists_of_mem_findAll {text : Chars} (h : m ∈ p.findAll text) :
    ∃ before rest, text = before ++ rest ∧ p.matchBetween before rest = some m :=
  exists_of_mem_findFrom 0 [] h

theorem exists_mem_findFrom {text : Chars} (passed : Chars) (htext : before ++ rest = passed ++ text)
    (hpassed : passed.length ≤ before.length) (hrest : rest ≠ [])
    (h : (p.matchBetween before rest).isSome = true) :
    ∃ m ∈ p.findFrom 0 passed.length passed.getLast? text, ∃ first more,
      before ++ rest = first ++ more ∧ first.length ≤ before.length ∧
        p.matchBetween first more = some m := by
  induction text generalizing passed with
  | nil =>
      have hlength := congrArg List.length htext
      have hpos : 0 < rest.length := List.length_pos_iff.mpr hrest
      simp only [List.length_append, List.length_nil] at hlength
      omega
  | cons c text ih =>
      unfold Pattern.findFrom
      split
      · rename_i found hfound
        exact ⟨found, List.mem_cons_self, passed, c :: text, htext, hpassed, hfound⟩
      · rename_i hnone
        have hlt : (passed ++ [c]).length ≤ before.length := by
          rw [List.length_append]
          exact length_lt_of_no_match htext hpassed h hnone
        simpa using ih (passed ++ [c]) (by simpa using htext) hlt

/-- Where a pattern matches, or before that place, the first of all its matches stands. -/
theorem exists_mem_findAll (hrest : rest ≠ []) (h : (p.matchBetween before rest).isSome = true) :
    ∃ m ∈ p.findAll (before ++ rest), ∃ first more, before ++ rest = first ++ more ∧
      first.length ≤ before.length ∧ p.matchBetween first more = some m :=
  exists_mem_findFrom [] rfl (Nat.zero_le _) hrest h

end

end DeployTrace.Text
