/-
  DeployTrace/Proofs/Merging.lean --- the first of every key.

  WHAT THIS FILE IS FOR.  Flows with one key are the same flow seen twice, and the first one seen stays.
  The rule is stated here for elements of any kind with a key, because the laws that use it speak about
  flows together with where they were found.
-/
import DeployTrace.Flow.Basic

set_option autoImplicit false

namespace DeployTrace

variable {α β κ : Type} [DecidableEq κ]

/-- The elements without those whose key an earlier one has, where `seen` are keys that came before. -/
def firstBy (key : α → κ) (seen : List κ) : List α → List α
  | [] => []
  | a :: rest =>
    if seen.contains (key a) then firstBy key seen rest else a :: firstBy key (key a :: seen) rest

theorem firstByKey_eq_firstBy (seen : List FlowKey) (flows : List Flow) :
    firstByKey seen flows = firstBy Flow.key seen flows := by
  induction flows generalizing seen with
  | nil => rfl
  | cons f rest ih => simp only [firstByKey, firstBy, ih]

variable {key : α → κ}

/-- Choosing by the key of a part and then keeping the part is choosing among the parts. -/
theorem map_firstBy (f : β → α) (seen : List κ) (xs : List β) :
    (firstBy (fun b => key (f b)) seen xs).map f = firstBy key seen (xs.map f) := by
  induction xs generalizing seen with
  | nil => rfl
  | cons b rest ih =>
      simp only [firstBy, List.map_cons]
      split <;> simp [ih]

theorem firstBy_sublist (seen : List κ) (xs : List α) : (firstBy key seen xs).Sublist xs := by
  induction xs generalizing seen with
  | nil => exact List.Sublist.refl []
  | cons a rest ih =>
      unfold firstBy
      split
      · exact (ih seen).cons a
      · exact (ih (key a :: seen)).cons_cons a

theorem key_notMem_of_mem_firstBy {seen : List κ} {xs : List α} {a : α}
    (ha : a ∈ firstBy key seen xs) : key a ∉ seen := by
  induction xs generalizing seen with
  | nil => simp [firstBy] at ha
  | cons b rest ih =>
      unfold firstBy at ha
      split at ha
      · exact ih ha
      · rename_i hb
        rcases List.mem_cons.mp ha with rfl | ha
        · simpa using hb
        · exact fun hseen => ih ha (List.mem_cons_of_mem (key b) hseen)

theorem nodup_keys_firstBy (seen : List κ) (xs : List α) :
    ((firstBy key seen xs).map key).Nodup := by
  induction xs generalizing seen with
  | nil => simp [firstBy]
  | cons a rest ih =>
      unfold firstBy
      split
      · exact ih seen
      · refine List.nodup_cons.mpr ⟨?_, ih (key a :: seen)⟩
        intro hmem
        obtain ⟨b, hb, hkey⟩ := List.mem_map.mp hmem
        exact key_notMem_of_mem_firstBy hb (hkey ▸ List.mem_cons_self)

/-- An element is left out only when its key was seen before or an earlier element has it. -/
theorem mem_firstBy_or {R : α → α → Prop} (key : α → κ) (seen : List κ) {xs : List α}
    (order : xs.Pairwise R) {a : α} (ha : a ∈ xs) :
    a ∈ firstBy key seen xs ∨ key a ∈ seen ∨ ∃ b ∈ xs, R b a ∧ key b = key a := by
  induction xs generalizing seen with
  | nil => simp at ha
  | cons b rest ih =>
      obtain ⟨hb, hrest⟩ := List.pairwise_cons.mp order
      unfold firstBy
      rcases List.mem_cons.mp ha with rfl | ha
      · split
        · rename_i hseen
          exact Or.inr (Or.inl (by simpa using hseen))
        · exact Or.inl List.mem_cons_self
      · split
        · rcases ih seen hrest ha with h | h | ⟨c, hc, h⟩
          · exact Or.inl h
          · exact Or.inr (Or.inl h)
          · exact Or.inr (Or.inr ⟨c, List.mem_cons_of_mem b hc, h⟩)
        · rcases ih (key b :: seen) hrest ha with h | h | ⟨c, hc, h⟩
          · exact Or.inl (List.mem_cons_of_mem b h)
          · rcases List.mem_cons.mp h with h | h
            · exact Or.inr (Or.inr ⟨b, List.mem_cons_self, hb a ha, h.symm⟩)
            · exact Or.inr (Or.inl h)
          · exact Or.inr (Or.inr ⟨c, List.mem_cons_of_mem b hc, h⟩)

/-- Of the elements with one key the first stays, if the key was not seen before. -/
theorem exists_mem_firstBy {R : α → α → Prop} (key : α → κ) {seen : List κ} {xs : List α}
    (order : xs.Pairwise R) {a : α} (ha : a ∈ xs) (hnew : key a ∉ seen) :
    ∃ b ∈ firstBy key seen xs, key b = key a ∧ (b = a ∨ R b a) := by
  induction xs generalizing seen with
  | nil => cases ha
  | cons c rest ih =>
      obtain ⟨hc, hrest⟩ := List.pairwise_cons.mp order
      unfold firstBy
      by_cases hsame : key c = key a
      · have hunseen : seen.contains (key c) = false := by simpa [hsame] using hnew
        rw [hunseen]
        refine ⟨c, List.mem_cons_self, hsame, ?_⟩
        rcases List.mem_cons.mp ha with rfl | ha
        · exact Or.inl rfl
        · exact Or.inr (hc a ha)
      · have ha : a ∈ rest := by
          rcases List.mem_cons.mp ha with rfl | ha
          · exact absurd rfl hsame
          · exact ha
        split
        · exact ih hrest ha hnew
        · have hstill : key a ∉ key c :: seen := by
            intro hmem
            rcases List.mem_cons.mp hmem with heq | hmem
            · exact hsame heq.symm
            · exact hnew hmem
          obtain ⟨b, hb, hfirst⟩ := ih hrest ha hstill
          exact ⟨b, List.mem_cons_of_mem c hb, hfirst⟩

/-- What stays of two lists stays of one of them. -/
theorem mem_firstBy_append {seen : List κ} {xs ys : List α} {a : α}
    (ha : a ∈ firstBy key seen (xs ++ ys)) :
    a ∈ firstBy key seen xs ∨ ∃ before, a ∈ firstBy key before ys := by
  induction xs generalizing seen with
  | nil => exact Or.inr ⟨seen, ha⟩
  | cons b rest ih =>
      rw [List.cons_append, firstBy] at ha
      rw [firstBy]
      split at ha
      · rename_i hseen
        rw [if_pos hseen]
        exact ih ha
      · rename_i hseen
        rw [if_neg hseen]
        rcases List.mem_cons.mp ha with rfl | ha
        · exact Or.inl List.mem_cons_self
        · exact (ih ha).imp_left (List.mem_cons_of_mem b)

/-- What stays of several lists stays of one of them. -/
theorem mem_firstBy_flatten {seen : List κ} {lists : List (List α)} {a : α}
    (ha : a ∈ firstBy key seen lists.flatten) : ∃ xs ∈ lists, ∃ before, a ∈ firstBy key before xs := by
  induction lists generalizing seen with
  | nil => cases ha
  | cons xs rest ih =>
      rw [List.flatten_cons] at ha
      rcases mem_firstBy_append ha with hfirst | ⟨before, hlater⟩
      · exact ⟨xs, List.mem_cons_self, seen, hfirst⟩
      · obtain ⟨ys, hys, more⟩ := ih hlater
        exact ⟨ys, List.mem_cons_of_mem xs hys, more⟩

/-- An element that stays is the first with its key. -/
theorem first_of_mem_firstBy {R : α → α → Prop} {seen : List κ} {xs : List α} (order : xs.Pairwise R)
    {a b : α} (ha : a ∈ firstBy key seen xs) (hb : b ∈ xs) (hkey : key b = key a) : b = a ∨ R a b := by
  induction xs generalizing seen with
  | nil => cases hb
  | cons c rest ih =>
      obtain ⟨hc, hrest⟩ := List.pairwise_cons.mp order
      unfold firstBy at ha
      split at ha
      · rename_i hseen
        rcases List.mem_cons.mp hb with rfl | hb
        · have hkeySeen : key a ∈ seen := hkey ▸ by simpa using hseen
          exact absurd hkeySeen (key_notMem_of_mem_firstBy ha)
        · exact ih hrest ha hb
      · rcases List.mem_cons.mp ha with rfl | ha
        · exact (List.mem_cons.mp hb).imp_right (hc b)
        · rcases List.mem_cons.mp hb with rfl | hb
          · have hkeySeen : key a ∈ key b :: seen := hkey ▸ List.mem_cons_self
            exact absurd hkeySeen (key_notMem_of_mem_firstBy ha)
          · exact ih hrest ha hb

/-- An element stays only when no earlier one has its key. -/
theorem key_ne_of_mem_firstBy {R : α → α → Prop} (asymm : ∀ a b, R a b → ¬ R b a) {seen : List κ}
    {xs : List α} (order : xs.Pairwise R) {a b : α} (ha : a ∈ firstBy key seen xs) (hb : b ∈ xs)
    (hba : R b a) : key b ≠ key a := by
  intro hkey
  rcases first_of_mem_firstBy order ha hb hkey with rfl | hab
  · exact asymm b b hba hba
  · exact asymm b a hba hab

end DeployTrace
