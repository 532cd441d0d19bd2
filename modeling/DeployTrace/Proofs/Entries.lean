/-
  DeployTrace/Proofs/Entries.lean --- laws of named entries and of lists without repetition.

  Entries that were put one after the other have every name once.  Then the value under a name is the
  value of the entry, wherever it stands.
-/
import DeployTrace.Entries

set_option autoImplicit false

namespace DeployTrace

variable {α β : Type}

/-! ## Lists without repetition -/

section Distinct

variable [BEq α] [LawfulBEq α]

theorem mem_addNew {known more : List α} {a : α} : a ∈ addNew known more ↔ a ∈ known ∨ a ∈ more := by
  unfold addNew
  induction more generalizing known with
  | nil => simp
  | cons x rest ih =>
      rw [List.foldl_cons, ih, List.mem_cons]
      split
      · rename_i hx
        have hmem : x ∈ known := by simpa using hx
        constructor
        · rintro (h | h)
          · exact Or.inl h
          · exact Or.inr (Or.inr h)
        · rintro (h | rfl | h)
          · exact Or.inl h
          · exact Or.inl hmem
          · exact Or.inr h
      · simp only [List.mem_append, List.mem_singleton]
        exact or_assoc

theorem mem_distinct {xs : List α} {a : α} : a ∈ distinct xs ↔ a ∈ xs := by
  unfold distinct
  rw [mem_addNew]
  simp

theorem nodup_addNew {known more : List α} (h : known.Nodup) : (addNew known more).Nodup := by
  unfold addNew
  induction more generalizing known with
  | nil => exact h
  | cons x rest ih =>
      rw [List.foldl_cons]
      split
      · exact ih h
      · rename_i hx
        refine ih (List.nodup_append.mpr ⟨h, by simp, ?_⟩)
        intro a ha b hb
        rw [List.mem_singleton] at hb
        rintro rfl
        exact hx (by simpa [hb] using ha)

theorem addNew_eq {known more : List α} : addNew known more = known ++ (more.removeAll known).eraseDups := by
  unfold addNew
  induction more generalizing known with
  | nil => simp
  | cons x rest ih =>
      rw [List.foldl_cons, ih]
      by_cases hx : x ∈ known
      · simp [hx, List.cons_removeAll]
      · have hfilter : rest.removeAll (known ++ [x]) = (rest.removeAll known).filter fun y => !y == x := by
          simp only [List.removeAll, List.filter_filter]
          refine List.filter_congr fun y _ => ?_
          by_cases hy : y = x <;> simp [hy]
        simp [hx, List.cons_removeAll, List.eraseDups_cons, hfilter]

/-- Adding one element after the other keeps the first of each. -/
theorem distinct_eq_eraseDups (xs : List α) : distinct xs = xs.eraseDups := by
  have hall : xs.removeAll [] = xs := List.filter_eq_self.mpr fun a _ => by simp
  rw [distinct, addNew_eq, hall, List.nil_append]

/-- Elements that are there already add nothing. -/
theorem distinct_append_of_subset {xs more : List α} (h : ∀ a ∈ more, a ∈ xs) :
    distinct (xs ++ more) = distinct xs := by
  have hnone : more.removeAll xs = [] := List.filter_eq_nil_iff.mpr fun a ha => by simp [h a ha]
  rw [distinct_eq_eraseDups, distinct_eq_eraseDups, List.eraseDups_append, hnone]
  simp

end Distinct

/-! ## Entries -/

namespace Entries

theorem nodup_names_put {entries : Entries α} (h : entries.names.Nodup) (name : String) (value : α) :
    (put entries name value).names.Nodup := by
  rw [names_put]
  split
  · exact h
  · rename_i hnew
    refine List.nodup_append.mpr ⟨h, by simp, ?_⟩
    intro a ha b hb
    rw [List.mem_singleton] at hb
    rintro rfl
    exact hnew (hb ▸ ha)

/-- Whatever is put, every name is there once. -/
theorem nodup_names_ofList (pairs : List (String × α)) : (ofList pairs).names.Nodup := by
  have step : ∀ entries : Entries α, entries.names.Nodup →
      (pairs.foldl (fun entries pair => put entries pair.1 pair.2) entries).names.Nodup := by
    induction pairs with
    | nil => exact fun _ h => h
    | cons pair rest ih => exact fun entries h => ih _ (nodup_names_put h pair.1 pair.2)
  exact step [] List.nodup_nil

theorem put_of_notMem {entries : Entries α} {name : String} (h : name ∉ entries.names) (value : α) :
    put entries name value = entries ++ [(name, value)] := by
  induction entries with
  | nil => rfl
  | cons pair rest ih =>
      obtain ⟨other, old⟩ := pair
      have hne : name ≠ other := List.ne_of_not_mem_cons h
      have hrest : name ∉ Entries.names rest := List.not_mem_of_not_mem_cons h
      have hother : (other == name) = false := beq_false_of_ne fun e => hne e.symm
      unfold put
      rw [hother, ih hrest]
      rfl

/-- Entries of which no two share a name are put as they stand. -/
theorem ofList_of_nodup {pairs : List (String × α)} (h : names pairs |>.Nodup) : ofList pairs = pairs := by
  have step : ∀ entries : Entries α, (names (entries ++ pairs)).Nodup →
      pairs.foldl (fun entries pair => put entries pair.1 pair.2) entries = entries ++ pairs := by
    clear h
    induction pairs with
    | nil => exact fun entries _ => (List.append_nil entries).symm
    | cons pair rest ih =>
        intro entries h
        have hnew : pair.1 ∉ entries.names := by
          intro hmem
          unfold names at h hmem
          rw [List.map_append] at h
          exact (List.nodup_append.mp h).2.2 _ hmem _ List.mem_cons_self rfl
        rw [List.foldl_cons, put_of_notMem hnew, ih _ (by simpa using h), List.append_assoc]
        rfl
  exact step [] h

theorem mem_of_mem_put {entries : Entries α} {name : String} {value : α} {pair : String × α}
    (h : pair ∈ put entries name value) : pair = (name, value) ∨ pair ∈ entries := by
  induction entries with
  | nil => exact Or.inl (List.mem_singleton.mp h)
  | cons first rest ih =>
      obtain ⟨other, old⟩ := first
      unfold put at h
      split at h
      · rcases List.mem_cons.mp h with h | h
        · exact Or.inl h
        · exact Or.inr (List.mem_cons_of_mem _ h)
      · rcases List.mem_cons.mp h with h | h
        · exact Or.inr (h ▸ List.mem_cons_self)
        · rcases ih h with h | h
          · exact Or.inl h
          · exact Or.inr (List.mem_cons_of_mem _ h)

/-- Entries hold only what was put. -/
theorem mem_of_mem_ofList {pairs : List (String × α)} {pair : String × α} (h : pair ∈ ofList pairs) :
    pair ∈ pairs := by
  have step : ∀ entries : Entries α,
      pair ∈ pairs.foldl (fun entries pair => put entries pair.1 pair.2) entries →
      pair ∈ entries ∨ pair ∈ pairs := by
    clear h
    induction pairs with
    | nil => exact fun _ h => Or.inl h
    | cons first rest ih =>
        intro entries h
        rcases ih _ h with h | h
        · rcases mem_of_mem_put h with h | h
          · exact Or.inr (h ▸ List.mem_cons_self)
          · exact Or.inl h
        · exact Or.inr (List.mem_cons_of_mem first h)
  rcases step [] h with h | h
  · exact absurd h List.not_mem_nil
  · exact h

theorem mem_names_of_mem {entries : Entries α} {name : String} {value : α}
    (h : (name, value) ∈ entries) : name ∈ entries.names :=
  List.mem_map.mpr ⟨(name, value), h, rfl⟩

theorem mem_of_get? {entries : Entries α} {name : String} {value : α}
    (h : entries.get? name = some value) : (name, value) ∈ entries := by
  obtain ⟨before, after, rfl, -⟩ := List.lookup_eq_some_iff.mp h
  exact List.mem_append_right before List.mem_cons_self

/-- Where every name is there once, an entry has the value under its name. -/
theorem get?_of_mem {entries : Entries α} (h : entries.names.Nodup) {name : String} {value : α}
    (hmem : (name, value) ∈ entries) : entries.get? name = some value := by
  induction entries with
  | nil => simp at hmem
  | cons pair rest ih =>
      obtain ⟨other, old⟩ := pair
      obtain ⟨hnew, hrest⟩ := List.nodup_cons.mp h
      rcases List.mem_cons.mp hmem with heq | hlater
      · cases heq
        simp [get?]
      · have hne : name ≠ other := by
          rintro rfl
          exact hnew (mem_names_of_mem hlater)
        have hbeq : (name == other) = false := beq_false_of_ne hne
        unfold get? at ih ⊢
        rw [List.lookup_cons, hbeq]
        exact ih hrest hlater

/-- The names stand in the order in which they were first put. -/
theorem names_ofList (pairs : List (String × α)) :
    (ofList pairs).names = (pairs.map (·.1)).eraseDups := by
  have step : ∀ entries : Entries α,
      (pairs.foldl (fun entries pair => put entries pair.1 pair.2) entries).names =
        addNew entries.names (pairs.map (·.1)) := by
    induction pairs with
    | nil => exact fun _ => rfl
    | cons pair rest ih =>
        intro entries
        rw [List.foldl_cons, ih, names_put, addNew, addNew, List.map_cons, List.foldl_cons]
        simp only [List.contains_iff_mem]
  rw [ofList, step, ← distinct_eq_eraseDups]
  rfl

/-- The value under a name is the last one that was put there. -/
theorem get?_ofList (pairs : List (String × α)) (name : String) :
    (ofList pairs).get? name = ((pairs.filter (·.1 == name)).getLast?).map (·.2) := by
  have step : ∀ entries : Entries α,
      get? (pairs.foldl (fun entries pair => put entries pair.1 pair.2) entries) name =
        (((pairs.filter (·.1 == name)).getLast?).map (·.2)).or (get? entries name) := by
    induction pairs with
    | nil => exact fun _ => rfl
    | cons pair rest ih =>
        intro entries
        rw [List.foldl_cons, ih, get?_put]
        by_cases h : pair.1 = name
        · simp [h, List.getLast?_cons]
        · have hne : ¬ name = pair.1 := fun e => h e.symm
          simp [h, hne]
  rw [ofList, step]
  simp [get?]

/-! ### Changing every value -/

theorem get?_map (f : α → β) (entries : Entries α) (name : String) :
    get? (entries.map fun entry => (entry.1, f entry.2)) name = (get? entries name).map f := by
  unfold get?
  induction entries with
  | nil => rfl
  | cons entry rest ih =>
      rw [List.map_cons, List.lookup_cons, List.lookup_cons, ih]
      split <;> rfl

theorem map_put (f : α → β) (entries : Entries α) (name : String) (value : α) :
    (put entries name value).map (fun entry => (entry.1, f entry.2)) =
      put (entries.map fun entry => (entry.1, f entry.2)) name (f value) := by
  induction entries with
  | nil => rfl
  | cons entry rest ih =>
      obtain ⟨other, old⟩ := entry
      simp only [put, List.map_cons]
      split
      · rfl
      · rw [List.map_cons, ih]

/-- Putting values and then changing each of them is putting the changed values. -/
theorem map_ofList (f : α → β) (pairs : List (String × α)) :
    (ofList pairs).map (fun entry => (entry.1, f entry.2)) =
      ofList (pairs.map fun pair => (pair.1, f pair.2)) := by
  have step : ∀ entries : Entries α,
      (pairs.foldl (fun entries pair => put entries pair.1 pair.2) entries).map
          (fun entry => (entry.1, f entry.2)) =
        (pairs.map fun pair => (pair.1, f pair.2)).foldl (fun entries pair => put entries pair.1 pair.2)
          (entries.map fun entry => (entry.1, f entry.2)) := by
    induction pairs with
    | nil => exact fun _ => rfl
    | cons pair rest ih =>
        intro entries
        rw [List.foldl_cons, ih, map_put, List.map_cons, List.foldl_cons]
  exact step []

end Entries

end DeployTrace
