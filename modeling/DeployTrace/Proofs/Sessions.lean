/-
  DeployTrace/Proofs/Sessions.lean --- sessions after any calls.

  WHAT THIS FILE IS FOR.  A session answers from memory when it can, and the memory is found by a digest.
  What an answer is after an arbitrary history of calls follows from one invariant: everything that is
  remembered is the answer that the new session gave to a call since the memory was last cleared, and stands
  under the name of that call (`Session.Remembers`).  It is stated for any session that was new once,
  whatever its detectors are, and for any way in which it is called.

  THE DIGEST.  Nothing can be said when the digest gives one name to two texts.  The laws assume that it
  keeps the texts of the calls apart, and nothing about any other texts.
-/
import DeployTrace.Proofs.Canonical

set_option autoImplicit false

namespace DeployTrace

/-! ## Calls -/

/-- One call of a session. -/
inductive SessionCall where
  | detect (workflow : Tree) (file : String)
  | clear

namespace Session

/-- The session after a call; a call that fails changes nothing. -/
def call (s : Session) : SessionCall → Session
  | .detect workflow file =>
    match s.detect workflow file with
    | .ok (_, after) => after
    | .error _ => s
  | .clear => s.clear

/-- The session after some calls. -/
def after (s : Session) (calls : List SessionCall) : Session := calls.foldl call s

/-- The answer of a session to one call. -/
def answer (s : Session) (workflow : Tree) (file : String) : Except SessionFault (List Flow) :=
  (s.detect workflow file).map (·.1)

end Session

/-- The calls since the last clearing, given those before, after one more call. -/
def recentAfter (recent : List SessionCall) : SessionCall → List SessionCall
  | .clear => []
  | call => recent ++ [call]

/-- The calls since the last clearing. -/
def sinceClear (calls : List SessionCall) : List SessionCall := calls.foldl recentAfter []

/-- Whether the digest keeps the text of a workflow apart from the texts of some calls. -/
def Digest.Separates (digest : Digest) (calls : List SessionCall) (workflow : Tree) (file : String) :
    Prop :=
  ∀ v g, .detect v g ∈ calls →
    digest.full (fingerprintText v g) = digest.full (fingerprintText workflow file) →
    fingerprintText v g = fingerprintText workflow file

theorem mem_of_mem_sinceClear {calls : List SessionCall} {c : SessionCall} (h : c ∈ sinceClear calls) :
    c ∈ calls := by
  have run : ∀ (calls recent : List SessionCall), c ∈ calls.foldl recentAfter recent →
      c ∈ recent ∨ c ∈ calls := by
    intro calls
    induction calls with
    | nil => exact fun _ h => Or.inl h
    | cons d rest ih =>
        intro recent h
        rcases ih _ h with h | h
        · cases d with
          | clear => exact absurd h List.not_mem_nil
          | detect v f =>
              rcases List.mem_append.mp h with h | h
              · exact Or.inl h
              · exact Or.inr (List.mem_singleton.mp h ▸ List.mem_cons_self)
        · exact Or.inr (List.mem_cons_of_mem d h)
  rcases run calls [] h with h | h
  · exact absurd h List.not_mem_nil
  · exact h

theorem Digest.Separates.sinceClear {digest : Digest} {calls : List SessionCall} {workflow : Tree}
    {file : String} (separates : digest.Separates calls workflow file) :
    digest.Separates (sinceClear calls) workflow file :=
  fun v g hcall hname => separates v g (mem_of_mem_sinceClear hcall) hname

/-! ## One call -/

/-- The fault of something that is no table. -/
def tableFault : Tree → SessionFault
  | .null => .workflowMissing
  | workflow => .workflow (.notATable workflow.kindName)

section

variable {s : Session} {digest : Digest} {options : DetectorOptions} {workflow : Tree} {file : String}

theorem Session.detect_of_remembered {flows : List Flow} (hnull : workflow ≠ .null)
    (h : s.remembered? (fingerprint s.digest workflow file) = some flows) :
    s.detect workflow file = .ok (flows, s) := by
  unfold detect
  split
  · exact absurd rfl hnull
  · simp only [h]

theorem Session.detect_of_new {table : Table} (room : 0 < s.capacity)
    (h : s.remembered? (fingerprint s.digest (.table table) file) = none) :
    ∃ cache, cache ⊆ s.cache ++ [(fingerprint s.digest (.table table) file,
        flowsInContext s.options s.detectors (.ofTable table file))] ∧
      s.detect (.table table) file =
        .ok (flowsInContext s.options s.detectors (.ofTable table file), { s with cache := cache }) := by
  unfold detect compute remember
  simp only [h, Context.ofWorkflow, workflowTable, Except.map]
  by_cases hroom : s.cache.length < s.capacity
  · refine ⟨_, List.Subset.refl _, ?_⟩
    rw [if_pos hroom]
  · rw [if_neg hroom]
    cases hcache : s.cache with
    | nil =>
        rw [hcache, List.length_nil] at hroom
        omega
    | cons oldest rest =>
        refine ⟨_, ?_, rfl⟩
        exact List.append_subset.mpr ⟨fun _ h => List.mem_append_left _ (List.mem_cons_of_mem _ h),
          fun _ h => List.mem_append_right _ h⟩

/-- What is no table is refused unless it is remembered. -/
theorem Session.detect_of_not_table (htable : ∀ table, workflow ≠ .table table)
    (h : s.remembered? (fingerprint s.digest workflow file) = none) :
    s.detect workflow file = .error (tableFault workflow) := by
  unfold detect compute
  cases workflow with
  | table table => exact absurd rfl (htable table)
  | list items => simp [h, Context.ofWorkflow, workflowTable, Except.map, tableFault]
  | leaf value =>
      cases value <;> simp [h, Context.ofWorkflow, workflowTable, Except.map, tableFault]

/-- An answer is remembered, or it is found for a table and then remembered, with others given up. -/
theorem Session.detect_ok_cases {flows : List Flow} {after : Session} (room : 0 < s.capacity)
    (h : s.detect workflow file = .ok (flows, after)) :
    (s.remembered? (fingerprint s.digest workflow file) = some flows ∧ after = s) ∨
      (s.remembered? (fingerprint s.digest workflow file) = none ∧
        ∃ table cache, workflow = .table table ∧
          flows = flowsInContext s.options s.detectors (.ofTable table file) ∧
          cache ⊆ s.cache ++ [(fingerprint s.digest workflow file, flows)] ∧
          after = { s with cache := cache }) := by
  cases hmem : s.remembered? (fingerprint s.digest workflow file) with
  | some known =>
      left
      by_cases hnull : workflow = .null
      · subst hnull
        cases h
      · rw [detect_of_remembered hnull hmem] at h
        cases h
        exact ⟨rfl, rfl⟩
  | none =>
      right
      by_cases htable : ∀ table, workflow ≠ .table table
      · rw [detect_of_not_table htable hmem] at h
        cases h
      · obtain ⟨table, rfl⟩ : ∃ table, workflow = .table table := by
          simpa using htable
        obtain ⟨cache, hcache, hdetect⟩ := detect_of_new room hmem
        rw [hdetect] at h
        cases h
        exact ⟨rfl, table, cache, rfl, rfl, hcache, rfl⟩

end

/-! ## New sessions -/

/-- A session that remembers nothing and has room. -/
structure Session.IsNew (s : Session) : Prop where
  cache : s.cache = []
  room : 0 < s.capacity

theorem Session.start_isNew (digest : Digest) (options : DetectorOptions) : (start digest options).IsNew :=
  ⟨rfl, (by decide : 0 < standardCapacity)⟩

section

variable {s : Session} {digest : Digest} {options : DetectorOptions} {workflow : Tree} {file : String}

theorem Session.IsNew.remembered? (h : s.IsNew) (key : String) : s.remembered? key = none := by
  unfold Session.remembered?
  rw [h.cache]
  rfl

/-- A new session answers about a table with what its detectors find. -/
theorem Session.IsNew.answer_table (h : s.IsNew) (table : Table) : s.answer (.table table) file =
    .ok (flowsInContext s.options s.detectors (.ofTable table file)) := by
  obtain ⟨cache, -, hdetect⟩ := detect_of_new h.room (h.remembered? (fingerprint s.digest (.table table) file))
  unfold answer
  rw [hdetect]
  rfl

theorem Session.IsNew.answer_of_not_table (h : s.IsNew) (htable : ∀ table, workflow ≠ .table table) :
    s.answer workflow file = .error (tableFault workflow) := by
  unfold answer
  rw [detect_of_not_table htable (h.remembered? _)]
  rfl

theorem detectFlows_table (table : Table) :
    detectFlows digest options (.table table) file =
      .ok (flowsInContext options (detectors digest) (.ofTable table file)) :=
  (Session.start_isNew digest options).answer_table table

theorem detectFlows_of_not_table (htable : ∀ table, workflow ≠ .table table) :
    detectFlows digest options workflow file = .error (tableFault workflow) :=
  (Session.start_isNew digest options).answer_of_not_table htable

end

/-! ## The invariant -/

/-- What holds of a session that was new as `origin` and then answered first as `first` says, given the calls
since it was last cleared. -/
structure Session.Remembers (s origin : Session) (first : Tree → String → Except SessionFault (List Flow))
    (recent : List SessionCall) : Prop where
  digest_eq : s.digest = origin.digest
  options_eq : s.options = origin.options
  detectors_eq : s.detectors = origin.detectors
  room : 0 < s.capacity
  /-- every remembered answer is the first answer to a recent call, under the name of that call -/
  earlier : ∀ entry ∈ s.cache, ∃ v f, .detect v f ∈ recent ∧ entry.1 = fingerprint origin.digest v f ∧
    first v f = .ok entry.2

section

variable {s origin after : Session} {first : Tree → String → Except SessionFault (List Flow)}
variable {recent : List SessionCall} {workflow : Tree} {file : String} {flows : List Flow}

theorem Session.IsNew.remembers (h : origin.IsNew) : origin.Remembers origin first [] where
  digest_eq := rfl
  options_eq := rfl
  detectors_eq := rfl
  room := h.room
  earlier entry hentry := by
    rw [h.cache] at hentry
    exact absurd hentry List.not_mem_nil

theorem Session.Remembers.mono {more : List SessionCall} (h : s.Remembers origin first recent)
    (hmore : recent ⊆ more) : s.Remembers origin first more where
  digest_eq := h.digest_eq
  options_eq := h.options_eq
  detectors_eq := h.detectors_eq
  room := h.room
  earlier entry hentry := by
    obtain ⟨v, f, hcall, hname, hfirst⟩ := h.earlier entry hentry
    exact ⟨v, f, hmore hcall, hname, hfirst⟩

theorem Session.Remembers.cleared (h : s.Remembers origin first recent) :
    s.clear.Remembers origin first [] :=
  ⟨h.digest_eq, h.options_eq, h.detectors_eq, h.room, by simp [clear]⟩

/-- A remembered answer is the first answer to a recent call that has the same name. -/
theorem Session.Remembers.of_remembered (h : s.Remembers origin first recent)
    (hmem : s.remembered? (fingerprint s.digest workflow file) = some flows) :
    ∃ v f, .detect v f ∈ recent ∧ fingerprint origin.digest v f = fingerprint origin.digest workflow file ∧
      first v f = .ok flows := by
  obtain ⟨v, f, hcall, hname, hfirst⟩ := h.earlier _ (Entries.mem_of_get? hmem)
  rw [h.digest_eq] at hname
  exact ⟨v, f, hcall, hname.symm, hfirst⟩

/-- Where the digest keeps texts apart, such a call is about the same file and a workflow of the same
canonical text. -/
theorem Session.Remembers.of_remembered_apart (h : s.Remembers origin first recent)
    (separates : origin.digest.Separates recent workflow file)
    (hmem : s.remembered? (fingerprint s.digest workflow file) = some flows) :
    ∃ v, .detect v file ∈ recent ∧ Json.canonical v = Json.canonical workflow ∧
      first v file = .ok flows := by
  obtain ⟨v, f, hcall, hname, hfirst⟩ := h.of_remembered hmem
  obtain ⟨rfl, hcanonical⟩ := fingerprintText_inj (separates v f hcall hname)
  exact ⟨v, hcall, hcanonical, hfirst⟩

/-- An answer that is not remembered is the one that the new session gives. -/
theorem Session.Remembers.answer_of_new (new : origin.IsNew) (h : s.Remembers origin first recent)
    (hnew : s.remembered? (fingerprint s.digest workflow file) = none) :
    s.answer workflow file = origin.answer workflow file := by
  by_cases htable : ∀ table, workflow ≠ .table table
  · rw [new.answer_of_not_table htable]
    unfold answer
    rw [detect_of_not_table htable hnew]
    rfl
  · obtain ⟨table, rfl⟩ : ∃ table, workflow = .table table := by simpa using htable
    obtain ⟨cache, -, hdetect⟩ := detect_of_new h.room hnew
    rw [new.answer_table, ← h.options_eq, ← h.detectors_eq]
    unfold answer
    rw [hdetect]
    rfl

/-- An answer adds at most itself to the memory, if it is new. -/
theorem Session.Remembers.after_detect (h : s.Remembers origin first recent)
    (hdetect : s.detect workflow file = .ok (flows, after))
    (hfirst : s.remembered? (fingerprint s.digest workflow file) = none → first workflow file = .ok flows) :
    after.Remembers origin first (recent ++ [.detect workflow file]) := by
  have hold := h.mono (List.subset_append_left recent [.detect workflow file])
  rcases detect_ok_cases h.room hdetect with ⟨-, rfl⟩ | ⟨hnew, table, cache, rfl, -, hcache, rfl⟩
  · exact hold
  · refine ⟨h.digest_eq, h.options_eq, h.detectors_eq, h.room, ?_⟩
    intro entry hentry
    rcases List.mem_append.mp (hcache hentry) with hentry | hentry
    · exact hold.earlier entry hentry
    · rw [List.mem_singleton.mp hentry, h.digest_eq]
      exact ⟨.table table, file, by simp, rfl, hfirst hnew⟩

/-- The whole run: if every call keeps the invariant, then after any calls the session remembers first
answers to calls since the last clearing, and nothing else. -/
theorem Session.IsNew.foldl_remembers (new : origin.IsNew) {step : Session → SessionCall → Session}
    (hstep : ∀ {s recent}, s.Remembers origin first recent → ∀ c,
      (step s c).Remembers origin first (recentAfter recent c)) (calls : List SessionCall) :
    (calls.foldl step origin).Remembers origin first (sinceClear calls) := by
  have run : ∀ (calls : List SessionCall) (s : Session) (recent : List SessionCall),
      s.Remembers origin first recent →
      (calls.foldl step s).Remembers origin first (calls.foldl recentAfter recent) := by
    intro calls
    induction calls with
    | nil => exact fun _ _ h => h
    | cons c rest ih => exact fun s recent h => ih _ _ (hstep h c)
  exact run calls _ _ new.remembers

/-! ## Calls that take everything to be written -/

/-- One step: a call keeps the invariant. -/
theorem Session.Remembers.call (new : origin.IsNew) (h : s.Remembers origin origin.answer recent)
    (c : SessionCall) : (s.call c).Remembers origin origin.answer (recentAfter recent c) := by
  cases c with
  | clear => exact h.cleared
  | detect workflow file =>
      unfold Session.call
      simp only
      cases hdetect : s.detect workflow file with
      | error fault => exact h.mono (List.subset_append_left recent [.detect workflow file])
      | ok result =>
          refine h.after_detect hdetect fun hnew => ?_
          rw [← h.answer_of_new new hnew]
          exact congrArg (Except.map Prod.fst) hdetect

theorem Session.IsNew.after_remembers (new : origin.IsNew) (calls : List SessionCall) :
    (origin.after calls).Remembers origin origin.answer (sinceClear calls) :=
  new.foldl_remembers (fun h c => h.call new c) calls

end

end DeployTrace
