/-
  DeployTrace/Proofs/Eviction.lean --- what a memory of limited room holds.

  WHAT THIS FILE IS FOR.  A session gives up its oldest answer when a new one needs the room.  What it
  then holds is said without going through its additions and removals: of the answers found since the
  memory was last cleared, the latest ones, each once, as many as there is room for, in the order in
  which they were found.

  WHICH ANSWERS ARE FOUND.  Whether a call finds an answer or remembers one depends on what is in the
  memory at that moment, so an answer that was given up may be found again later.  The history of
  answers is therefore taken along the run, from the names in the memory and from what a new session
  answers; nothing in it knows how room is made.

  No law here needs the digest to keep texts apart.  A call whose name is taken is answered from memory,
  whoever took it.
-/
import DeployTrace.Proofs.Memory
import Mathlib.Data.List.DropRight

set_option autoImplicit false

namespace DeployTrace

/-! ## The latest elements of a list -/

/-- Of a growing list only the latest elements need to be kept in order to know the latest ones. -/
theorem rtake_rtake_concat {α : Type} (count : Nat) (xs : List α) (a : α) :
    (xs.rtake count ++ [a]).rtake count = (xs ++ [a]).rtake count := by
  cases count with
  | zero => rw [List.rtake_zero, List.rtake_zero]
  | succ count =>
      have hshorter : (xs.rtake (count + 1)).rtake count = xs.rtake count := by
        simp only [List.rtake_eq_reverse_take_reverse, List.reverse_reverse, List.take_take]
        rw [Nat.min_eq_left (Nat.le_succ count)]
      rw [List.rtake_concat_succ, List.rtake_concat_succ, hshorter]

theorem length_rtake_le {α : Type} (count : Nat) (xs : List α) : (xs.rtake count).length ≤ count := by
  unfold List.rtake
  rw [List.length_drop]
  omega

/-! ## The history of answers -/

namespace Session

/-- The answer that a call finds, with its name: none when the name is remembered, and none when a new
session has no answer either. -/
def found? (s : Session) : SessionCall → Option (String × List Flow)
  | .clear => none
  | .detect workflow file =>
    if fingerprint s.digest workflow file ∈ s.keys then none
    else match detectFlows s.digest s.options workflow file with
      | .ok flows => some (fingerprint s.digest workflow file, flows)
      | .error _ => none

/-- The answers found since the last clearing, given those before, after one more call of a session. -/
def foundAfter (s : Session) (found : List (String × List Flow)) : SessionCall → List (String × List Flow)
  | .clear => []
  | .detect workflow file => found ++ (s.found? (.detect workflow file)).toList

/-- The answers found since the last clearing, given those before, after some calls of a session. -/
def foundFrom (s : Session) (found : List (String × List Flow)) :
    List SessionCall → List (String × List Flow)
  | [] => found
  | c :: rest => (s.call c).foundFrom (s.foundAfter found c) rest

/-- The answers that some calls of a session find after the last clearing, in the order in which they
are found. -/
def foundSinceClear (s : Session) (calls : List SessionCall) : List (String × List Flow) :=
  s.foundFrom [] calls

end Session

/-! ## One call -/

section

variable {s : Session} {workflow : Tree} {file : String}

theorem Session.remembered?_eq_none_iff {key : String} : s.remembered? key = none ↔ key ∉ s.keys := by
  unfold remembered? keys
  rw [List.lookup_eq_none_iff]
  simp only [List.mem_map, not_exists, not_and]
  constructor
  · intro h entry hentry hkey
    simpa [hkey] using h entry hentry
  · intro h entry hentry
    simpa using fun hkey : key = entry.1 => h entry hentry hkey.symm

/-- One more answer: all are kept that there is room for, the latest ones first of all. -/
theorem Session.remember_eq {key : String} {flows : List Flow} (room : 0 < s.capacity)
    (fits : s.cache.length ≤ s.capacity) :
    s.remember key flows = .ok { s with cache := (s.cache ++ [(key, flows)]).rtake s.capacity } := by
  unfold remember List.rtake
  rw [List.length_append, List.length_singleton]
  by_cases hroom : s.cache.length < s.capacity
  · have hnone : s.cache.length + 1 - s.capacity = 0 := by omega
    rw [if_pos hroom, hnone, List.drop_zero]
  · have hone : s.cache.length + 1 - s.capacity = 1 := by omega
    rw [if_neg hroom, hone]
    cases hcache : s.cache with
    | nil =>
        rw [hcache, List.length_nil] at hroom
        exact absurd room hroom
    | cons oldest rest => rfl

/-- All that a call of `detect` does to a session: an answer that it finds is added, and the oldest ones
go for which there is no room; a call that finds none changes nothing. -/
theorem Session.call_detect (hdetectors : s.detectors = DeployTrace.detectors s.digest)
    (room : 0 < s.capacity) (fits : s.cache.length ≤ s.capacity) :
    s.call (.detect workflow file) = match s.found? (.detect workflow file) with
      | none => s
      | some entry => { s with cache := (s.cache ++ [entry]).rtake s.capacity } := by
  unfold call found?
  simp only
  by_cases hkey : fingerprint s.digest workflow file ∈ s.keys
  · rw [if_pos hkey]
    cases hmem : s.remembered? (fingerprint s.digest workflow file) with
    | none => exact absurd hkey (remembered?_eq_none_iff.mp hmem)
    | some flows =>
        by_cases hnull : workflow = .null
        · subst hnull
          rfl
        · rw [detect_of_remembered hnull hmem]
  · rw [if_neg hkey]
    have hmem := remembered?_eq_none_iff.mpr hkey
    by_cases htable : ∀ table, workflow ≠ .table table
    · rw [detect_of_not_table htable hmem, detectFlows_of_not_table htable]
    · obtain ⟨table, rfl⟩ : ∃ table, workflow = .table table := by simpa using htable
      rw [detectFlows_table]
      unfold detect compute
      simp only [hmem, Context.ofWorkflow, workflowTable, Except.map, remember_eq room fits, hdetectors]

end

/-! ## Any calls -/

/-- What holds of a session of the standard room, given the answers found since it was last cleared. -/
structure Session.HoldsLatest (found : List (String × List Flow)) (s : Session) : Prop where
  detectors_eq : s.detectors = DeployTrace.detectors s.digest
  capacity_eq : s.capacity = standardCapacity
  cache_eq : s.cache = found.rtake standardCapacity
  names_differ : s.keys.Nodup

section

variable {s : Session} {found : List (String × List Flow)}

theorem Session.start_holdsLatest (digest : Digest) (options : DetectorOptions) :
    (start digest options).HoldsLatest [] where
  detectors_eq := rfl
  capacity_eq := rfl
  cache_eq := (List.rtake_nil standardCapacity).symm
  names_differ := List.nodup_nil

theorem Session.HoldsLatest.room (h : s.HoldsLatest found) : 0 < s.capacity := by
  rw [h.capacity_eq]
  decide

theorem Session.HoldsLatest.fits (h : s.HoldsLatest found) : s.cache.length ≤ s.capacity := by
  rw [h.capacity_eq, h.cache_eq]
  exact length_rtake_le standardCapacity found

/-- An answer that is found has a name that is not remembered. -/
theorem Session.name_new_of_found? {c : SessionCall} {entry : String × List Flow}
    (hfound : s.found? c = some entry) : entry.1 ∉ s.keys := by
  cases c with
  | clear => cases hfound
  | detect workflow file =>
      unfold found? at hfound
      simp only at hfound
      split at hfound
      · cases hfound
      · rename_i hkey
        split at hfound
        · cases hfound
          exact hkey
        · cases hfound

/-- Adding an answer under a new name keeps the latest answers, under different names. -/
theorem Session.HoldsLatest.add (h : s.HoldsLatest found) {entry : String × List Flow}
    (hnew : entry.1 ∉ s.keys) :
    Session.HoldsLatest (found ++ [entry])
      { s with cache := (s.cache ++ [entry]).rtake s.capacity } where
  detectors_eq := h.detectors_eq
  capacity_eq := h.capacity_eq
  cache_eq := by
    show (s.cache ++ [entry]).rtake s.capacity = _
    rw [h.capacity_eq, h.cache_eq]
    exact rtake_rtake_concat standardCapacity found entry
  names_differ := by
    have hall : ((s.cache ++ [entry]).map (·.1)).Nodup := by
      rw [List.map_append]
      refine List.nodup_append.mpr ⟨h.names_differ, by simp, ?_⟩
      rintro name hname _ hentry rfl
      obtain rfl : name = entry.1 := List.mem_singleton.mp hentry
      exact hnew hname
    exact hall.sublist ((List.drop_sublist _ _).map _)

/-- One step: a call keeps the invariant, with the answer that it finds. -/
theorem Session.HoldsLatest.call (h : s.HoldsLatest found) (c : SessionCall) :
    (s.call c).HoldsLatest (s.foundAfter found c) := by
  cases c with
  | clear =>
      exact ⟨h.detectors_eq, h.capacity_eq, (List.rtake_nil standardCapacity).symm, List.nodup_nil⟩
  | detect workflow file =>
      rw [call_detect h.detectors_eq h.room h.fits]
      unfold foundAfter
      simp only
      cases hfound : s.found? (.detect workflow file) with
      | none =>
          rw [Option.toList_none, List.append_nil]
          exact h
      | some entry => exact h.add (name_new_of_found? hfound)

/-- The whole run: after any calls a session holds the latest of the answers found. -/
theorem Session.after_holdsLatest (digest : Digest) (options : DetectorOptions)
    (calls : List SessionCall) :
    ((start digest options).after calls).HoldsLatest ((start digest options).foundSinceClear calls) := by
  have run : ∀ (calls : List SessionCall) (s : Session) (found : List (String × List Flow)),
      s.HoldsLatest found → (s.after calls).HoldsLatest (s.foundFrom found calls) := by
    intro calls
    induction calls with
    | nil => exact fun _ _ h => h
    | cons c rest ih => exact fun s found h => ih _ _ (h.call c)
  exact run calls _ _ (start_holdsLatest digest options)

/-- A call whose name is remembered changes nothing, whether it is answered or fails. -/
theorem Session.HoldsLatest.call_of_remembered (h : s.HoldsLatest found) {workflow : Tree}
    {file : String} (hkey : fingerprint s.digest workflow file ∈ s.keys) :
    s.call (.detect workflow file) = s := by
  have hnone : s.found? (.detect workflow file) = none := if_pos hkey
  rw [call_detect h.detectors_eq h.room h.fits, hnone]

theorem Session.call_of_fails {workflow : Tree} {file : String} {fault : SessionFault}
    (hfails : s.answer workflow file = .error fault) : s.call (.detect workflow file) = s := by
  unfold answer at hfails
  unfold call
  cases hdetect : s.detect workflow file with
  | ok pair =>
      rw [hdetect] at hfails
      cases hfails
  | error fault => simp only [hdetect]

end

/-- After any calls, whatever they ask about, the memory has room for 256 answers and holds the latest of
the answers found since it was last cleared, each with the flows found then, in the order in which they
were found, under different names.  A call whose name is remembered, and a call that fails, leave it as
it was. -/
theorem Session.memory_holds_latest (digest : Digest) (options : DetectorOptions)
    (calls : List SessionCall) :
    let s := (start digest options).after calls
    s.cache = ((start digest options).foundSinceClear calls).rtake 256 ∧
      s.cache.length ≤ 256 ∧ s.keys.Nodup ∧
      ∀ workflow file, (fingerprint s.digest workflow file ∈ s.keys ∨
          ∃ fault, s.answer workflow file = .error fault) →
        (s.call (.detect workflow file)).cache = s.cache := by
  intro s
  have inv : s.HoldsLatest ((start digest options).foundSinceClear calls) :=
    after_holdsLatest digest options calls
  refine ⟨inv.cache_eq, inv.cache_eq ▸ length_rtake_le 256 _, inv.names_differ, ?_⟩
  rintro workflow file (hkey | ⟨fault, hfails⟩)
  · rw [inv.call_of_remembered hkey]
  · rw [call_of_fails hfails]

/-- After a clearing, a failure and two answers, a call about the first of them and a call about a list
leave the memory as it is. -/
theorem Session.memory_holds_latest_cleared :
    let s := (start plainDigest {}).after [.detect (.table []) "a.yml", .clear, .detect (.list []) "a.yml",
      .detect (.table []) "b.yml", .detect (.table []) "a.yml"]
    s.keys = ["b.yml\n\x7b\x7d", "a.yml\n\x7b\x7d"] ∧
      (fingerprint s.digest (.table []) "b.yml" ∈ s.keys ∧
        (s.call (.detect (.table []) "b.yml")).cache = s.cache) ∧
      ((∃ fault, s.answer (.list []) "b.yml" = .error fault) ∧
        (s.call (.detect (.list []) "b.yml")).cache = s.cache) := by
  intro s
  obtain ⟨-, -, -, unchanged⟩ := memory_holds_latest plainDigest {} [.detect (.table []) "a.yml", .clear,
    .detect (.list []) "a.yml", .detect (.table []) "b.yml", .detect (.table []) "a.yml"]
  have hkeys : s.keys = ["b.yml\n\x7b\x7d", "a.yml\n\x7b\x7d"] := by decide +kernel
  have hmem : fingerprint s.digest (.table []) "b.yml" ∈ s.keys := by decide +kernel
  have hnew : s.remembered? (fingerprint s.digest (.list []) "b.yml") = none :=
    remembered?_eq_none_iff.mpr (by decide +kernel)
  have hfails : ∃ fault, s.answer (.list []) "b.yml" = .error fault := by
    unfold answer
    rw [detect_of_not_table (by simp) hnew]
    exact ⟨_, rfl⟩
  exact ⟨hkeys, ⟨hmem, unchanged _ _ (.inl hmem)⟩, hfails, unchanged _ _ (.inr hfails)⟩

end DeployTrace
