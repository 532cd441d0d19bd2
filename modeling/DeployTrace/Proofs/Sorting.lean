/-
  DeployTrace/Proofs/Sorting.lean --- what sorting and cutting lists keep.

  WHAT THIS FILE IS FOR.  Reports are sorted lists that are cut at a limit.  Two things about them are
  used again and again: a sorted list is in order, AND elements that rank alike stand as they stood
  before; and whatever a cut leaves out comes after everything it keeps.

  THE ORDER.  `sortBy` is given a test for "strictly before".  The facts below need no more of it than
  that it is a strict weak order, which is what comparing by a score gives.
-/
import DeployTrace.Entries

set_option autoImplicit false

namespace DeployTrace

variable {α β : Type}

/-! ## Strict weak orders -/

/-- A test for "strictly before" under which ranking alike is an equivalence. -/
structure WeakOrder (precedes : α → α → Bool) : Prop where
  asymm : ∀ a b, precedes a b = true → precedes b a = false
  between : ∀ a b c, precedes a c = true → precedes a b = true ∨ precedes b c = true

namespace WeakOrder

variable {precedes : α → α → Bool}

/-- Nothing that does not come before `b` comes before what `b` comes before or ranks with. -/
theorem not_of_not_of_not (order : WeakOrder precedes) {a b c : α} (hab : precedes a b = false)
    (hbc : precedes b c = false) : precedes a c = false := by
  cases hac : precedes a c with
  | false => rfl
  | true =>
      rcases order.between a b c hac with h | h
      · simp [hab] at h
      · simp [hbc] at h

/-- Comparing by a score is a strict weak order when comparing the scores is one. -/
theorem comap (order : WeakOrder precedes) (score : β → α) :
    WeakOrder (fun a b => precedes (score a) (score b)) where
  asymm a b := order.asymm (score a) (score b)
  between a b c := order.between (score a) (score b) (score c)

theorem flip (order : WeakOrder precedes) : WeakOrder (fun a b => precedes b a) where
  asymm a b := order.asymm b a
  between a b c h := (order.between c b a h).symm

end WeakOrder

/-! ## Sorting -/

theorem mem_insertBy {precedes : α → α → Bool} {x a : α} {xs : List α} :
    a ∈ insertBy precedes x xs ↔ a = x ∨ a ∈ xs := by
  rw [(insertBy_perm precedes x xs).mem_iff, List.mem_cons]

theorem mem_sortBy {precedes : α → α → Bool} {a : α} {xs : List α} :
    a ∈ sortBy precedes xs ↔ a ∈ xs :=
  (sortBy_perm precedes xs).mem_iff

/-- The relation between an element of a sorted list and a later one: it strictly precedes it, or it
ranks no later and stood in the relation `R` of the unsorted list. -/
def StablyBefore (precedes : α → α → Bool) (R : α → α → Prop) (a b : α) : Prop :=
  precedes a b = true ∨ (precedes b a = false ∧ R a b)

theorem StablyBefore.not_precedes {precedes : α → α → Bool} (order : WeakOrder precedes)
    {R : α → α → Prop} {a b : α} (h : StablyBefore precedes R a b) : precedes b a = false := by
  rcases h with h | ⟨h, _⟩
  · exact order.asymm a b h
  · exact h

/-- Inserting an element that stood before all others keeps a list sorted.  It is put before the first
element it need not follow; from there on nothing precedes it, since the list was in order. -/
theorem insertBy_pairwise {precedes : α → α → Bool} (order : WeakOrder precedes) {R : α → α → Prop}
    {x : α} {xs : List α} (hx : ∀ a ∈ xs, R x a)
    (sorted : xs.Pairwise (StablyBefore precedes R)) :
    (insertBy precedes x xs).Pairwise (StablyBefore precedes R) := by
  induction xs with
  | nil => simp [insertBy]
  | cons y rest ih =>
      obtain ⟨hy, hrest⟩ := List.pairwise_cons.mp sorted
      have hxrest : ∀ a ∈ rest, R x a := fun a ha => hx a (List.mem_cons_of_mem y ha)
      unfold insertBy
      split
      · rename_i hyx
        refine List.pairwise_cons.mpr ⟨?_, ih hxrest hrest⟩
        intro a ha
        rcases mem_insertBy.mp ha with rfl | ha
        · exact Or.inl hyx
        · exact hy a ha
      · rename_i hyx
        have hyx : precedes y x = false := by simpa using hyx
        refine List.pairwise_cons.mpr ⟨?_, sorted⟩
        intro a ha
        refine Or.inr ⟨?_, hx a ha⟩
        rcases List.mem_cons.mp ha with rfl | ha
        · exact hyx
        · exact order.not_of_not_of_not ((hy a ha).not_precedes order) hyx

/-- A sorted list is in order, and elements that rank alike keep the relation in which they stood. -/
theorem sortBy_pairwise {precedes : α → α → Bool} (order : WeakOrder precedes) {R : α → α → Prop}
    {xs : List α} (h : xs.Pairwise R) :
    (sortBy precedes xs).Pairwise (StablyBefore precedes R) := by
  induction xs with
  | nil => simp [sortBy]
  | cons x rest ih =>
      obtain ⟨hx, hrest⟩ := List.pairwise_cons.mp h
      exact insertBy_pairwise order (fun a ha => hx a (mem_sortBy.mp ha)) (ih hrest)

/-- A list of which no two elements rank alike is sorted in one way, in whatever order it is given. -/
theorem sortBy_eq_of_perm {precedes : α → α → Bool} (order : WeakOrder precedes) {xs ys : List α}
    (h : xs.Perm ys)
    (apart : ∀ a ∈ xs, ∀ b ∈ xs, precedes a b = false → precedes b a = false → a = b) :
    sortBy precedes xs = sortBy precedes ys := by
  have sorted (zs : List α) : (sortBy precedes zs).Pairwise fun a b => precedes b a = false :=
    (sortBy_pairwise order (List.pairwise_of_forall fun _ _ => trivial)).imp
      fun h => h.not_precedes order
  refine List.Perm.eq_of_pairwise ?_ (sorted xs) (sorted ys)
    (((sortBy_perm precedes xs).trans h).trans (sortBy_perm precedes ys).symm)
  intro a b ha hb hab hba
  exact apart a (mem_sortBy.mp ha) b (h.mem_iff.mpr (mem_sortBy.mp hb)) hba hab

theorem insertBy_of_forall {precedes : α → α → Bool} {x : α} {xs : List α}
    (hx : ∀ a ∈ xs, precedes a x = false) : insertBy precedes x xs = x :: xs := by
  cases xs with
  | nil => rfl
  | cons y rest =>
      unfold insertBy
      rw [hx y List.mem_cons_self]
      rfl

/-- Inserting an element that is kept into a list in order and leaving elements out come to the same in
either order. -/
theorem filter_insertBy {precedes : α → α → Bool} (order : WeakOrder precedes) {keep : α → Bool} {x : α}
    (hx : keep x = true) {xs : List α} (sorted : xs.Pairwise fun a b => precedes b a = false) :
    (insertBy precedes x xs).filter keep = insertBy precedes x (xs.filter keep) := by
  induction xs with
  | nil => simp [insertBy, hx]
  | cons y rest ih =>
      obtain ⟨hy, hrest⟩ := List.pairwise_cons.mp sorted
      by_cases hyx : precedes y x = true
      · have hbehind : ∀ zs, insertBy precedes x (y :: zs) = y :: insertBy precedes x zs :=
          fun _ => if_pos hyx
        rw [hbehind, List.filter_cons, List.filter_cons, ih hrest]
        split
        · rw [hbehind]
        · rfl
      · -- Nothing from here on precedes the new element, kept or not.
        have hafter : ∀ a ∈ y :: rest, precedes a x = false := by
          intro a ha
          rcases List.mem_cons.mp ha with rfl | ha
          · simpa using hyx
          · exact order.not_of_not_of_not (hy a ha) (by simpa using hyx)
        rw [insertBy_of_forall hafter,
          insertBy_of_forall fun a ha => hafter a (List.mem_filter.mp ha).1, List.filter_cons, if_pos hx]

theorem filter_insertBy_of_not {precedes : α → α → Bool} {keep : α → Bool} {x : α}
    (hx : keep x = false) (xs : List α) :
    (insertBy precedes x xs).filter keep = xs.filter keep := by
  induction xs with
  | nil => simp [insertBy, hx]
  | cons y rest ih =>
      unfold insertBy
      split
      · rw [List.filter_cons, List.filter_cons, ih]
      · simp [hx]

/-- Sorting a part of a list gives the same part of the sorted list, in its order. -/
theorem sortBy_filter {precedes : α → α → Bool} (order : WeakOrder precedes) (keep : α → Bool)
    (xs : List α) : sortBy precedes (xs.filter keep) = (sortBy precedes xs).filter keep := by
  induction xs with
  | nil => rfl
  | cons x rest ih =>
      have sorted : (sortBy precedes rest).Pairwise fun a b => precedes b a = false :=
        (sortBy_pairwise order (List.pairwise_of_forall fun _ _ => trivial)).imp
          fun h => h.not_precedes order
      rw [List.filter_cons]
      split
      · rename_i hx
        rw [sortBy, ih, sortBy, filter_insertBy order hx sorted]
      · rename_i hx
        rw [ih, sortBy, filter_insertBy_of_not (by simpa using hx)]

theorem insertBy_congr {p q : α → α → Bool} {x : α} {xs : List α}
    (h : ∀ a ∈ xs, p a x = q a x) : insertBy p x xs = insertBy q x xs := by
  induction xs with
  | nil => rfl
  | cons y rest ih =>
      have hrest := ih fun a ha => h a (List.mem_cons_of_mem y ha)
      simp only [insertBy, h y List.mem_cons_self, hrest]

/-- Two tests that agree on the elements of a list sort it alike. -/
theorem sortBy_congr {p q : α → α → Bool} {xs : List α}
    (h : ∀ a ∈ xs, ∀ b ∈ xs, p a b = q a b) : sortBy p xs = sortBy q xs := by
  induction xs with
  | nil => rfl
  | cons x rest ih =>
      have hrest := ih fun a ha b hb =>
        h a (List.mem_cons_of_mem x ha) b (List.mem_cons_of_mem x hb)
      simp only [sortBy, hrest]
      refine insertBy_congr fun a ha => ?_
      exact h a (List.mem_cons_of_mem x (mem_sortBy.mp ha)) x List.mem_cons_self

theorem map_insertBy (f : β → α) (precedes : α → α → Bool) (x : β) (xs : List β) :
    (insertBy (fun a b => precedes (f a) (f b)) x xs).map f = insertBy precedes (f x) (xs.map f) := by
  induction xs with
  | nil => rfl
  | cons y rest ih =>
      simp only [insertBy, List.map_cons]
      split <;> simp [ih]

/-- Sorting by a score and then keeping the scores is sorting the scores. -/
theorem map_sortBy (f : β → α) (precedes : α → α → Bool) (xs : List β) :
    (sortBy (fun a b => precedes (f a) (f b)) xs).map f = sortBy precedes (xs.map f) := by
  induction xs with
  | nil => rfl
  | cons x rest ih => simp only [sortBy, map_insertBy, ih, List.map_cons]

/-! ## Choosing -/

/-- Going through a list with the best element so far, which only a better one replaces, ends with the
first of the best: it is better than all before it, and none after it is better. -/
theorem foldl_best_split {precedes : α → α → Bool} (order : WeakOrder precedes) {first best : α}
    {rest : List α} (h : rest.foldl (fun best a => if precedes a best then a else best) first = best) :
    ∃ before after, first :: rest = before ++ best :: after ∧
      (∀ a ∈ before, precedes best a = true) ∧ ∀ a ∈ after, precedes a best = false := by
  induction rest generalizing first with
  | nil => exact ⟨[], [], by rw [← h]; rfl, by simp, by simp⟩
  | cons a rest ih =>
      rw [List.foldl_cons] at h
      by_cases ha : precedes a first = true
      · rw [if_pos ha] at h
        obtain ⟨before, after, hsplit, hbefore, hafter⟩ := ih h
        refine ⟨first :: before, after, by rw [hsplit]; rfl, ?_, hafter⟩
        refine List.forall_mem_cons.mpr ⟨?_, hbefore⟩
        cases before with
        | nil => rwa [← (List.cons.inj hsplit).1]
        | cons b before =>
            obtain ⟨rfl, -⟩ := List.cons.inj hsplit
            have hfirst : precedes first a = false := order.asymm a first ha
            rcases order.between best first a (hbefore a List.mem_cons_self) with hbest | hbest
            · exact hbest
            · simp [hfirst] at hbest
      · rw [if_neg ha] at h
        obtain ⟨before, after, hsplit, hbefore, hafter⟩ := ih h
        cases before with
        | nil =>
            obtain ⟨rfl, rfl⟩ := List.cons.inj hsplit
            exact ⟨[], a :: rest, rfl, by simp, List.forall_mem_cons.mpr ⟨by simpa using ha, hafter⟩⟩
        | cons b before =>
            obtain ⟨rfl, rfl⟩ := List.cons.inj hsplit
            obtain ⟨hfirst, hbefore⟩ := List.forall_mem_cons.mp hbefore
            refine ⟨first :: a :: before, after, rfl, ?_, hafter⟩
            refine List.forall_mem_cons.mpr ⟨hfirst, List.forall_mem_cons.mpr ⟨?_, hbefore⟩⟩
            exact (order.between best a first hfirst).resolve_right ha

/-- Two tests that agree on the elements of a list choose the same one. -/
theorem foldl_best_congr {p q : α → α → Bool} {first : α} {rest : List α}
    (h : ∀ a ∈ first :: rest, ∀ b ∈ first :: rest, p a b = q a b) :
    rest.foldl (fun best a => if p a best then a else best) first =
      rest.foldl (fun best a => if q a best then a else best) first := by
  induction rest generalizing first with
  | nil => rfl
  | cons a rest ih =>
      rw [List.foldl_cons, List.foldl_cons, h a (by simp) first (by simp)]
      refine ih fun x hx y hy => h x ?_ y ?_
      · split at hx <;> grind
      · split at hy <;> grind

/-! ## Cutting -/

theorem keepFirst_of_nonneg {limit : Int} (h : 0 ≤ limit) (xs : List α) :
    keepFirst limit xs = xs.take limit.toNat := by
  simp [keepFirst, h]

theorem keepFirst_sublist (limit : Int) (xs : List α) : (keepFirst limit xs).Sublist xs := by
  unfold keepFirst
  split
  · exact List.take_sublist _ _
  · exact List.take_sublist _ _

theorem keepFirst_subset (limit : Int) (xs : List α) : keepFirst limit xs ⊆ xs :=
  (keepFirst_sublist limit xs).subset

theorem map_keepFirst (f : β → α) (limit : Int) (xs : List β) :
    (keepFirst limit xs).map f = keepFirst limit (xs.map f) := by
  unfold keepFirst
  split <;> simp [List.map_take]

/-- Of a list in order, what is left by a condition that whatever comes first meets first is the
beginning. -/
theorem filter_isPrefix {R : α → α → Prop} {keep : α → Bool} {xs : List α} (sorted : xs.Pairwise R)
    (closed : ∀ a b, R a b → keep b = true → keep a = true) : xs.filter keep <+: xs := by
  induction xs with
  | nil => exact List.prefix_rfl
  | cons x rest ih =>
      obtain ⟨hx, hrest⟩ := List.pairwise_cons.mp sorted
      by_cases hkeep : keep x = true
      · rw [List.filter_cons, if_pos hkeep]
        exact List.cons_prefix_cons.mpr ⟨rfl, ih hrest⟩
      · have hnone : (x :: rest).filter keep = [] := by
          refine List.filter_eq_nil_iff.mpr ?_
          intro a ha hka
          rcases List.mem_cons.mp ha with rfl | ha
          · exact hkeep hka
          · exact hkeep (closed x a (hx a ha) hka)
        rw [hnone]
        exact List.nil_prefix

/-- A shorter cut of a beginning is a beginning of a longer cut. -/
theorem keepFirst_isPrefix {few many : Int} (hfew : 0 ≤ few) (hle : few ≤ many) {xs ys : List α}
    (h : xs <+: ys) : keepFirst few xs <+: keepFirst many ys := by
  rw [keepFirst_of_nonneg hfew, keepFirst_of_nonneg (Int.le_trans hfew hle)]
  refine List.prefix_take_iff.mpr ⟨(List.take_prefix _ _).trans h, ?_⟩
  have hlength := List.length_take_le few.toNat xs
  omega

/-- Whatever a cut leaves out of a list in order comes after everything the cut keeps, and the cut is
full. -/
theorem mem_take_or_full {R : α → α → Prop} (n : Nat) {xs : List α} (sorted : xs.Pairwise R)
    {a : α} (ha : a ∈ xs) : a ∈ xs.take n ∨ ((xs.take n).length = n ∧ ∀ b ∈ xs.take n, R b a) := by
  rw [← List.take_append_drop n xs] at ha sorted
  rcases List.mem_append.mp ha with ha | ha
  · exact Or.inl ha
  · refine Or.inr ⟨?_, fun b hb => (List.pairwise_append.mp sorted).2.2 b hb a ha⟩
    have hpos : 0 < (xs.drop n).length := List.length_pos_of_mem ha
    rw [List.length_drop] at hpos
    rw [List.length_take]
    omega

end DeployTrace
