/-
  DeployTrace/Proofs/Matching.lean --- what a match says about the text.

  WHAT THIS FILE IS FOR.  `Pattern.run` says which way of matching counts.  Most facts about matches do
  not depend on that: they hold of every way in which a pattern can read a text.  Those ways are given
  here as a RELATION between places, `Pattern.Reaches`, that mentions no order and no continuation, and
  the matcher is shown to find nothing else (`run_sound`).

  MARKED PARTS.  Names are read from marked parts, and a name must not be empty.  Whether a pattern can
  leave a part empty is decided on the pattern alone: `reads` tells that it reads a character, `sets`
  that it leaves a part that is not empty, `keeps` that it does not spoil one that is there.
-/
import DeployTrace.Text.Pattern

set_option autoImplicit false

namespace DeployTrace.Text

/-! ## The ways to match -/

/-- A pattern can read the text from one place to another. -/
inductive Pattern.Reaches : Pattern → Place → Place → Prop where
  | nothing {place : Place} : Reaches .nothing place place
  | char {accepts : Char → Bool} {place : Place} {c : Char} {rest : Chars}
      (hrest : place.rest = c :: rest) (hc : accepts c = true) :
      Reaches (.char accepts) place (place.advance c rest)
  | spanStop {greedy : Bool} {accepts : Char → Bool} {place : Place} :
      Reaches (.span greedy accepts) place place
  | spanStep {greedy : Bool} {accepts : Char → Bool} {place later : Place} {c : Char} {rest : Chars}
      (hrest : place.rest = c :: rest) (hc : accepts c = true)
      (more : Reaches (.span greedy accepts) (place.advance c rest) later) :
      Reaches (.span greedy accepts) place later
  | both {first second : Pattern} {place middle later : Place} (h₁ : Reaches first place middle)
      (h₂ : Reaches second middle later) : Reaches (.both first second) place later
  | left {first second : Pattern} {place later : Place} (h : Reaches first place later) :
      Reaches (.either first second) place later
  | right {first second : Pattern} {place later : Place} (h : Reaches second place later) :
      Reaches (.either first second) place later
  | manyStop {greedy : Bool} {body : Pattern} {place : Place} : Reaches (.many greedy body) place place
  | manyStep {greedy : Bool} {body : Pattern} {place middle later : Place}
      (round : Reaches body place middle) (hreads : place.index < middle.index)
      (more : Reaches (.many greedy body) middle later) : Reaches (.many greedy body) place later
  | mark {number : Nat} {body : Pattern} {place later : Place} (h : Reaches body place later) :
      Reaches (.mark number body) place
        { later with marks := (number, place.upTo later) :: later.marks }
  | wordEdge {place : Place} (h : place.atWordEdge = true) : Reaches .wordEdge place place
  | lineStart {place : Place} (h : place.before.isNone || place.before == some '\n') :
      Reaches .lineStart place place
  | textStart {place : Place} (h : place.before.isNone) : Reaches .textStart place place
  | textEnd {place : Place} (h : place.atEnd = true) : Reaches .textEnd place place

open Pattern (Reaches)

variable {β : Type} {next : Place → Option β} {found : β}

theorem spanFrom_sound {greedy : Bool} {accepts : Char → Bool} {text : Chars} {place : Place}
    (htext : place.rest = text) (h : spanFrom greedy accepts next text place = some found) :
    ∃ later, Reaches (.span greedy accepts) place later ∧ next later = some found := by
  induction text generalizing place with
  | nil => exact ⟨place, .spanStop, h⟩
  | cons c rest ih =>
      -- Greedy or not, the run stops here or reads the next character.
      have cases : next place = some found ∨
          (accepts c = true ∧ spanFrom greedy accepts next rest (place.advance c rest) = some found) := by
        unfold spanFrom at h
        grind
      rcases cases with hstop | ⟨hc, hmore⟩
      · exact ⟨place, .spanStop, hstop⟩
      · obtain ⟨later, hreach, hnext⟩ := ih rfl hmore
        exact ⟨later, .spanStep htext hc hreach, hnext⟩

theorem rounds_sound {greedy : Bool} {body : Pattern}
    (sound : ∀ {place : Place} {next : Place → Option β}, body.run place next = some found →
      ∃ later, Reaches body place later ∧ next later = some found)
    {left : Nat} {place : Place}
    (h : rounds greedy (fun place next => body.run place next) left place next = some found) :
    ∃ later, Reaches (.many greedy body) place later ∧ next later = some found := by
  induction left generalizing place with
  | zero => exact ⟨place, .manyStop, h⟩
  | succ left ih =>
      have cases : next place = some found ∨ body.run place (fun later =>
          if place.index < later.index then
            rounds greedy (fun place next => body.run place next) left later next else none) = some found := by
        unfold rounds at h
        grind
      rcases cases with hstop | hround
      · exact ⟨place, .manyStop, hstop⟩
      · obtain ⟨middle, hbody, hmore⟩ := sound hround
        split at hmore
        · rename_i hreads
          obtain ⟨later, hreach, hnext⟩ := ih hmore
          exact ⟨later, .manyStep hbody hreads hreach, hnext⟩
        · simp at hmore

/-- The matcher finds only ways in which the pattern can read the text. -/
theorem Pattern.run_sound {p : Pattern} {place : Place} (h : p.run place next = some found) :
    ∃ later, p.Reaches place later ∧ next later = some found := by
  induction p generalizing place next with
  | nothing => exact ⟨place, .nothing, h⟩
  | char accepts =>
      unfold run at h
      split at h
      · simp at h
      · rename_i c rest hrest
        split at h
        · rename_i hc
          exact ⟨place.advance c rest, .char hrest hc, h⟩
        · simp at h
  | span greedy accepts => exact spanFrom_sound rfl h
  | both first second ihFirst ihSecond =>
      obtain ⟨middle, h₁, h⟩ := ihFirst h
      obtain ⟨later, h₂, h⟩ := ihSecond h
      exact ⟨later, .both h₁ h₂, h⟩
  | either first second ihFirst ihSecond =>
      unfold run at h
      split at h
      · rename_i hfirst
        cases h
        obtain ⟨later, hreach, hnext⟩ := ihFirst hfirst
        exact ⟨later, .left hreach, hnext⟩
      · obtain ⟨later, hreach, hnext⟩ := ihSecond h
        exact ⟨later, .right hreach, hnext⟩
  | many greedy body ih => exact rounds_sound ih h
  | mark number body ih =>
      obtain ⟨later, hreach, hnext⟩ := ih h
      exact ⟨_, .mark hreach, hnext⟩
  | wordEdge =>
      unfold run at h
      obtain ⟨hedge, h⟩ := Option.ite_none_right_eq_some.mp h
      exact ⟨place, .wordEdge hedge, h⟩
  | lineStart =>
      unfold run at h
      obtain ⟨hstart, h⟩ := Option.ite_none_right_eq_some.mp h
      exact ⟨place, .lineStart hstart, h⟩
  | textStart =>
      unfold run at h
      obtain ⟨hstart, h⟩ := Option.ite_none_right_eq_some.mp h
      exact ⟨place, .textStart hstart, h⟩
  | textEnd =>
      unfold run at h
      obtain ⟨hend, h⟩ := Option.ite_none_right_eq_some.mp h
      exact ⟨place, .textEnd hend, h⟩

/-! ## How far a match reaches -/

/-- Reading moves on, and what was read and what is left make up what was there. -/
theorem Pattern.Reaches.index_le {p : Pattern} {place later : Place} (h : p.Reaches place later) :
    place.index ≤ later.index ∧
      later.index + later.rest.length = place.index + place.rest.length := by
  induction h with
  | nothing | spanStop | manyStop | wordEdge | lineStart | textStart | textEnd =>
      exact ⟨Nat.le_refl _, rfl⟩
  | char hrest hc =>
      simp only [Place.advance, hrest, List.length_cons]
      omega
  | spanStep hrest hc more ih =>
      simp only [Place.advance] at ih
      rw [hrest, List.length_cons]
      omega
  | both h₁ h₂ ih₁ ih₂ => omega
  | left h ih | right h ih => exact ih
  | manyStep round hreads more ihRound ihMore => omega
  | mark h ih => exact ih

/-- The text between two places is empty only when they are the same place. -/
theorem Place.upTo_ne_nil {place later : Place}
    (hlength : later.index + later.rest.length = place.index + place.rest.length)
    (hlt : place.index < later.index) : place.upTo later ≠ [] := by
  intro hnil
  have hzero := congrArg List.length hnil
  simp only [upTo, List.length_take, List.length_nil] at hzero
  omega

/-! ## Parts that are not empty -/

/-- Whether a pattern reads at least one character, however it matches. -/
def Pattern.reads : Pattern → Bool
  | char _ => true
  | both first second => first.reads || second.reads
  | either first second => first.reads && second.reads
  | mark _ body => body.reads
  | _ => false

/-- Whether a pattern never leaves the part `n` empty when it was not. -/
def Pattern.keeps (n : Nat) : Pattern → Bool
  | both first second => first.keeps n && second.keeps n
  | either first second => first.keeps n && second.keeps n
  | many _ body => body.keeps n
  | mark number body => if number == n then body.reads else body.keeps n
  | _ => true

/-- Whether a pattern always leaves a part `n` that is not empty. -/
def Pattern.sets (n : Nat) : Pattern → Bool
  | both first second => second.sets n || (first.sets n && second.keeps n)
  | either first second => first.sets n && second.sets n
  | mark number body => if number == n then body.reads else body.sets n
  | _ => false

/-- The part `n` is remembered and not empty. -/
def Place.HasPart (n : Nat) (place : Place) : Prop := ∃ c text, place.marks.lookup n = some (c :: text)

theorem Pattern.Reaches.reads {p : Pattern} {place later : Place} (h : p.Reaches place later)
    (hreads : p.reads = true) : place.index < later.index := by
  induction h with
  | char hrest hc => exact Nat.lt_succ_self _
  | both h₁ h₂ ih₁ ih₂ =>
      have hle₁ := h₁.index_le.1
      have hle₂ := h₂.index_le.1
      simp only [Pattern.reads, Bool.or_eq_true] at hreads
      rcases hreads with hreads | hreads
      · have := ih₁ hreads
        omega
      · have := ih₂ hreads
        omega
  | left h ih =>
      simp only [Pattern.reads, Bool.and_eq_true] at hreads
      exact ih hreads.1
  | right h ih =>
      simp only [Pattern.reads, Bool.and_eq_true] at hreads
      exact ih hreads.2
  | mark h ih => exact ih hreads
  | nothing | spanStop | spanStep | manyStop | manyStep | wordEdge | lineStart | textStart | textEnd =>
      simp [Pattern.reads] at hreads

/-- A part just read by a pattern that reads something is not empty; other parts are as they were. -/
theorem Place.hasPart_mark {place later : Place} {number n : Nat} {body : Pattern}
    (h : body.Reaches place later) (hpart : if number = n then body.reads = true else later.HasPart n) :
    HasPart n { later with marks := (number, place.upTo later) :: later.marks } := by
  by_cases hn : number = n
  · rw [if_pos hn] at hpart
    obtain ⟨c, text, htext⟩ :=
      List.exists_cons_of_ne_nil (upTo_ne_nil h.index_le.2 (h.reads hpart))
    refine ⟨c, text, ?_⟩
    simp [hn, htext]
  · rw [if_neg hn] at hpart
    obtain ⟨c, text, htext⟩ := hpart
    have hne : (n == number) = false := beq_false_of_ne (Ne.symm hn)
    refine ⟨c, text, ?_⟩
    simp [List.lookup_cons, hne, htext]

theorem Pattern.Reaches.keeps {p : Pattern} {place later : Place} {n : Nat}
    (h : p.Reaches place later) (hkeeps : p.keeps n = true) (hpart : place.HasPart n) :
    later.HasPart n := by
  induction h with
  | nothing | char | spanStop | manyStop | wordEdge | lineStart | textStart | textEnd => exact hpart
  | spanStep hrest hc more ih => exact ih hkeeps hpart
  | both h₁ h₂ ih₁ ih₂ =>
      simp only [Pattern.keeps, Bool.and_eq_true] at hkeeps
      exact ih₂ hkeeps.2 (ih₁ hkeeps.1 hpart)
  | left h ih =>
      simp only [Pattern.keeps, Bool.and_eq_true] at hkeeps
      exact ih hkeeps.1 hpart
  | right h ih =>
      simp only [Pattern.keeps, Bool.and_eq_true] at hkeeps
      exact ih hkeeps.2 hpart
  | manyStep round hreads more ihRound ihMore => exact ihMore hkeeps (ihRound hkeeps hpart)
  | mark h ih =>
      refine Place.hasPart_mark h ?_
      simp only [Pattern.keeps, beq_iff_eq] at hkeeps
      split
      · simpa [*] using hkeeps
      · exact ih (by simpa [*] using hkeeps) hpart

theorem Pattern.Reaches.sets {p : Pattern} {place later : Place} {n : Nat}
    (h : p.Reaches place later) (hsets : p.sets n = true) : later.HasPart n := by
  induction h with
  | both h₁ h₂ ih₁ ih₂ =>
      simp only [Pattern.sets, Bool.or_eq_true, Bool.and_eq_true] at hsets
      rcases hsets with hsets | ⟨hsets, hkeeps⟩
      · exact ih₂ hsets
      · exact h₂.keeps hkeeps (ih₁ hsets)
  | left h ih =>
      simp only [Pattern.sets, Bool.and_eq_true] at hsets
      exact ih hsets.1
  | right h ih =>
      simp only [Pattern.sets, Bool.and_eq_true] at hsets
      exact ih hsets.2
  | mark h ih =>
      refine Place.hasPart_mark h ?_
      simp only [Pattern.sets, beq_iff_eq] at hsets
      split
      · simpa [*] using hsets
      · exact ih (by simpa [*] using hsets)
  | nothing | char | spanStop | spanStep | manyStop | manyStep | wordEdge | lineStart | textStart |
    textEnd => simp [Pattern.sets] at hsets

/-! ## Matches -/

/-- What a match holds comes from one way in which a pattern reads. -/
def Match.ComesFrom (p : Pattern) (m : Match) : Prop :=
  ∃ place later, p.Reaches place later ∧ m.whole = place.upTo later ∧ m.marks = later.marks

theorem comesFrom_of_matchAt {p : Pattern} {skipped : Nat} {before : Option Char} {text : Chars}
    {m : Match} (h : p.matchAt skipped before text = some m) : m.ComesFrom p := by
  unfold Pattern.matchAt at h
  obtain ⟨later, hreach, hlater⟩ := Pattern.run_sound h
  cases hlater
  exact ⟨_, later, hreach, rfl, rfl⟩

theorem comesFrom_of_searchFrom {p : Pattern} {skipped : Nat} {before : Option Char} {text : Chars}
    {m : Match} (h : p.searchFrom skipped before text = some m) : m.ComesFrom p := by
  induction text generalizing skipped before with
  | nil => exact comesFrom_of_matchAt h
  | cons c rest ih =>
      unfold Pattern.searchFrom at h
      split at h
      · rename_i hfound
        cases h
        exact comesFrom_of_matchAt hfound
      · exact ih h

theorem comesFrom_of_search {p : Pattern} {text : Chars} {m : Match} (h : p.search text = some m) :
    m.ComesFrom p :=
  comesFrom_of_searchFrom h

theorem comesFrom_of_mem_findFrom {p : Pattern} {skip position : Nat} {before : Option Char}
    {text : Chars} {m : Match} (h : m ∈ p.findFrom skip position before text) : m.ComesFrom p := by
  induction text generalizing skip position before with
  | nil => simp [Pattern.findFrom] at h
  | cons c rest ih =>
      cases skip with
      | succ skip => exact ih h
      | zero =>
          unfold Pattern.findFrom at h
          split at h
          · rename_i hfound
            rcases List.mem_cons.mp h with rfl | h
            · exact comesFrom_of_matchAt hfound
            · exact ih h
          · exact ih h

theorem comesFrom_of_mem_findAll {p : Pattern} {text : Chars} {m : Match} (h : m ∈ p.findAll text) :
    m.ComesFrom p :=
  comesFrom_of_mem_findFrom h

/-- A part that a pattern always sets is not empty in any of its matches. -/
theorem Match.part_ne_empty {p : Pattern} {m : Match} {n : Nat} (h : m.ComesFrom p)
    (hsets : p.sets n = true) : String.ofList (m.part n) ≠ "" := by
  obtain ⟨place, later, hreach, -, hmarks⟩ := h
  obtain ⟨c, text, htext⟩ := hreach.sets hsets
  simp [Match.part, Match.part?, hmarks, htext]

end DeployTrace.Text
