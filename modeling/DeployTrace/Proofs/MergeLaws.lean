/-
  DeployTrace/Proofs/MergeLaws.lean --- merging flows in groups.

  WHAT THIS FILE IS FOR.  Flows of several runs are put together by merging their lists, and it should
  not matter in which groups that is done, nor whether a run is put in twice.

  THE ONE FACT.  What stays of two lists is what stays of the first and then what stays of the second
  when all keys of the first count as seen (`firstBy_append`).  Keys that were seen matter only as a set
  (`firstBy_congr`), and a list has the same keys as what stays of it (`mem_keys_firstBy`).  So a list
  may be replaced by what stays of it wherever it stands (`firstBy_group`), and the laws follow.
-/
import DeployTrace.Proofs.Merging

set_option autoImplicit false

namespace DeployTrace

section

variable {α κ : Type} [DecidableEq κ] {key : α → κ} {seen before : List κ} {xs : List α}

/-! ## What stays of a list -/

theorem firstBy_congr (h : ∀ k, k ∈ seen ↔ k ∈ before) (xs : List α) :
    firstBy key seen xs = firstBy key before xs := by
  induction xs generalizing seen before with
  | nil => rfl
  | cons a rest ih =>
      have hsame : seen.contains (key a) = before.contains (key a) := by
        rw [Bool.eq_iff_iff, List.contains_iff_mem, List.contains_iff_mem]
        exact h (key a)
      have hmore : ∀ k, k ∈ key a :: seen ↔ k ∈ key a :: before := by
        intro k
        rw [List.mem_cons, List.mem_cons, h k]
      simp only [firstBy, hsame, ih h, ih hmore]

/-- Nothing stays of a list whose keys were all seen. -/
theorem firstBy_eq_nil (h : ∀ a ∈ xs, key a ∈ seen) : firstBy key seen xs = [] := by
  rw [List.eq_nil_iff_forall_not_mem]
  intro a ha
  exact key_notMem_of_mem_firstBy ha (h a ((firstBy_sublist seen xs).mem ha))

theorem firstBy_append (seen : List κ) (xs ys : List α) :
    firstBy key seen (xs ++ ys) = firstBy key seen xs ++ firstBy key (xs.map key ++ seen) ys := by
  induction xs generalizing seen with
  | nil => rfl
  | cons a rest ih =>
      rw [List.cons_append, firstBy, firstBy]
      split
      · rename_i hseen
        rw [ih seen]
        -- The key of this element is among the keys seen already, so that it adds none.
        have hmem : key a ∈ seen := List.contains_iff_mem.mp hseen
        congr 1
        refine firstBy_congr (fun k => ?_) ys
        grind
      · rw [ih (key a :: seen), List.cons_append]
        congr 2
        refine firstBy_congr (fun k => ?_) ys
        grind

/-- The keys that stay are those that occur and were not seen. -/
theorem mem_keys_firstBy {k : κ} :
    k ∈ (firstBy key seen xs).map key ↔ k ∈ xs.map key ∧ k ∉ seen := by
  constructor
  · intro hk
    obtain ⟨a, ha, rfl⟩ := List.mem_map.mp hk
    exact ⟨List.mem_map_of_mem ((firstBy_sublist seen xs).mem ha), key_notMem_of_mem_firstBy ha⟩
  · rintro ⟨hk, hnew⟩
    obtain ⟨a, ha, rfl⟩ := List.mem_map.mp hk
    obtain ⟨b, hb, hkey, -⟩ :=
      exists_mem_firstBy key (List.pairwise_of_forall (R := fun _ _ => True) fun _ _ => trivial) ha hnew
    exact hkey ▸ List.mem_map_of_mem hb

/-- Choosing twice is choosing once, with the keys seen by either choice. -/
theorem firstBy_firstBy (seen before : List κ) (xs : List α) :
    firstBy key seen (firstBy key before xs) = firstBy key (before ++ seen) xs := by
  induction xs generalizing seen before with
  | nil => rfl
  | cons a rest ih =>
      by_cases hbefore : key a ∈ before
      · simp [firstBy, hbefore, ih seen before]
      · by_cases hseen : key a ∈ seen
        · have hskip : ∀ k, k ∈ (key a :: before) ++ seen ↔ k ∈ before ++ seen := by grind
          simpa [firstBy, hbefore, hseen, ih seen (key a :: before)] using firstBy_congr hskip rest
        · have hkeep : ∀ k, k ∈ (key a :: before) ++ (key a :: seen) ↔ k ∈ key a :: (before ++ seen) := by
            grind
          simpa [firstBy, hbefore, hseen, ih (key a :: seen) (key a :: before)] using
            firstBy_congr hkeep rest

/-- A part of a list may be replaced by what stays of it. -/
theorem firstBy_group (xs ys zs : List α) :
    firstBy key [] (xs ++ firstBy key [] ys ++ zs) = firstBy key [] (xs ++ ys ++ zs) := by
  have hmiddle : firstBy key (xs.map key ++ []) (firstBy key [] ys) = firstBy key (xs.map key ++ []) ys :=
    firstBy_firstBy _ [] ys
  have hkeys : ∀ k, k ∈ (xs ++ firstBy key [] ys).map key ++ [] ↔ k ∈ (xs ++ ys).map key ++ [] := by
    intro k
    have hpart : k ∈ (firstBy key [] ys).map key ↔ k ∈ ys.map key := by
      rw [mem_keys_firstBy, and_iff_left List.not_mem_nil]
    simp only [List.append_nil, List.map_append, List.mem_append, hpart]
  rw [firstBy_append [] (xs ++ firstBy key [] ys), firstBy_append [] (xs ++ ys), firstBy_append [] xs,
    firstBy_append [] xs, hmiddle, firstBy_congr hkeys]

/-- A list stays as it is when no key occurs twice or was seen. -/
theorem firstBy_eq_self (hnodup : (xs.map key).Nodup) (hnew : ∀ a ∈ xs, key a ∉ seen) :
    firstBy key seen xs = xs := by
  induction xs generalizing seen with
  | nil => rfl
  | cons a rest ih =>
      obtain ⟨ha, hrest⟩ := List.nodup_cons.mp hnodup
      obtain ⟨hanew, hrestNew⟩ := List.forall_mem_cons.mp hnew
      have hlater : ∀ b ∈ rest, key b ∉ key a :: seen := by
        intro b hb hmem
        rcases List.mem_cons.mp hmem with heq | hmem
        · exact ha (heq ▸ List.mem_map_of_mem hb)
        · exact hrestNew b hb hmem
      simp [firstBy, hanew, ih hrest hlater]

theorem firstBy_eq_self_iff : firstBy key [] xs = xs ↔ (xs.map key).Nodup := by
  constructor
  · intro h
    rw [← h]
    exact nodup_keys_firstBy [] xs
  · intro hnodup
    exact firstBy_eq_self hnodup fun _ _ => List.not_mem_nil

/-- Of the elements with a key that was not seen the first one stays and no other. -/
theorem filter_firstBy {k : κ} (hnew : k ∉ seen) (xs : List α) :
    (firstBy key seen xs).filter (key · = k) = (xs.find? (key · = k)).toList := by
  induction xs generalizing seen with
  | nil => rfl
  | cons a rest ih =>
      unfold firstBy
      by_cases hkey : key a = k
      · have hunseen : seen.contains (key a) = false := by simpa [hkey] using hnew
        have hnone : (firstBy key (key a :: seen) rest).filter (key · = k) = [] := by
          rw [List.filter_eq_nil_iff]
          intro b hb
          have hother := key_notMem_of_mem_firstBy hb
          rw [List.mem_cons, not_or] at hother
          simpa [← hkey] using hother.1
        rw [hunseen]
        simp [hkey, ← hnone]
      · have hlater : k ∉ key a :: seen := by
          rw [List.mem_cons, not_or]
          exact ⟨Ne.symm hkey, hnew⟩
        split
        · simpa [hkey] using ih hnew
        · simpa [hkey] using ih hlater

end

/-! ## Lists of flows -/

theorem mergeFlows_eq_firstBy (lists : List (List Flow)) :
    mergeFlows lists = firstBy Flow.key [] lists.flatten :=
  firstByKey_eq_firstBy [] lists.flatten

/-- Some of the lists may be merged beforehand. -/
theorem mergeFlows_group (before lists after : List (List Flow)) :
    mergeFlows (before ++ mergeFlows lists :: after) = mergeFlows (before ++ lists ++ after) := by
  simp only [mergeFlows_eq_firstBy, List.flatten_append, List.flatten_cons]
  rw [← List.append_assoc]
  exact firstBy_group before.flatten lists.flatten after.flatten

/-- Lists whose keys all stand in the lists before add nothing. -/
theorem mergeFlows_absorb {before lists : List (List Flow)}
    (h : ∀ f ∈ lists.flatten, f.key ∈ before.flatten.map Flow.key) :
    mergeFlows (before ++ lists) = mergeFlows before := by
  have hnone : firstBy Flow.key (before.flatten.map Flow.key ++ []) lists.flatten = [] :=
    firstBy_eq_nil fun f hf => by simpa using h f hf
  rw [mergeFlows_eq_firstBy, mergeFlows_eq_firstBy, List.flatten_append, firstBy_append, hnone,
    List.append_nil]

/-- Merging is associative and idempotent and has the empty list as its unit; it leaves exactly the
lists without repeated keys as they are; and it keeps, in their order, for every key the first flow and
no other. -/
theorem mergeFlows_laws (a b c : List Flow) (lists : List (List Flow)) (k : FlowKey) :
    mergeFlows [mergeFlows [a, b], c] = mergeFlows [a, b, c] ∧
      mergeFlows [a, mergeFlows [b, c]] = mergeFlows [a, b, c] ∧
      mergeFlows [a, a] = mergeFlows [a] ∧
      mergeFlows [[], a] = mergeFlows [a] ∧ mergeFlows [a, []] = mergeFlows [a] ∧
      (mergeFlows [a] = a ↔ (a.map Flow.key).Nodup) ∧
      (mergeFlows lists).Sublist lists.flatten ∧
      (mergeFlows lists).filter (·.key = k) = (lists.flatten.find? (·.key = k)).toList := by
  refine ⟨mergeFlows_group [] [a, b] [c], mergeFlows_group [a] [b, c] [], ?_, rfl, ?_, ?_, ?_, ?_⟩
  · have hagain : ∀ f ∈ [a].flatten, f.key ∈ [a].flatten.map Flow.key := fun _ hf => List.mem_map_of_mem hf
    exact mergeFlows_absorb hagain
  · have hempty : ∀ f ∈ ([[]] : List (List Flow)).flatten, f.key ∈ [a].flatten.map Flow.key :=
      fun _ hf => by cases hf
    exact mergeFlows_absorb hempty
  · rw [mergeFlows_eq_firstBy, List.flatten_singleton]
    exact firstBy_eq_self_iff
  · rw [mergeFlows_eq_firstBy]
    exact firstBy_sublist [] lists.flatten
  · rw [mergeFlows_eq_firstBy]
    exact filter_firstBy List.not_mem_nil lists.flatten

end DeployTrace
