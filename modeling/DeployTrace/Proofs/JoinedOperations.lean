/-
  DeployTrace/Proofs/JoinedOperations.lean --- operations of a job whose continuation lines are joined.

  WHAT THIS FILE IS FOR.  A backslash at the end of a line joins it to the next one, so a script says the
  same with its lines joined.  Detection goes by the joined text.  The kind of an operation and its
  subcommand are looked for in the text as it is written, where a backslash cuts a call in two:

      helm \
        upgrade web ./chart        A plain script as it is written; with the lines joined, Helm's upgrade.

  What is true is that joining the lines changes neither text nor directory of any operation, and nothing
  at all where no call goes over a continuation (`operations_withJoinedRuns`).

  HOW IT IS PROVED.  Every place at which something stands belongs to a place of the joined text, and
  later places to later ones.  A call that goes over no continuation stands at the one place exactly if it
  stands at the other (`matchBetween_joinLines`, `exists_of_matchBetween_joinLines`), so every form of
  call is found first at corresponding places (`search_joinLines`), and the call that is first among all
  forms is the same.
-/
import DeployTrace.Proofs.JoinedLines
import DeployTrace.Proofs.ToolCalls
import DeployTrace.Proofs.WorkflowShapes

set_option autoImplicit false

namespace DeployTrace

open Text Pattern Shell

/-! ## Calls that go over a continuation -/

/-- The places at which a continuation starts. -/
def Shell.continuations (text : Chars) : List Nat :=
  (List.range text.length).filter fun place => startsContinuation (text.drop place)

/-- A match of the pattern starts at a place or before it and goes on behind it. -/
def Text.Pattern.covers (p : Pattern) (text : Chars) (place : Nat) : Bool :=
  (List.range (place + 1)).any fun start =>
    match p.matchBetween (text.take start) (text.drop start) with
    | some m => decide (place < start + m.whole.length)
    | none => false

/-- The place of the joined text that a place belongs to. -/
def Shell.joinedPlace (text : Chars) (place : Nat) : Nat := (joinLines (text.take place)).length

/-- A match of the pattern goes over a continuation, in a text or in the joined text. -/
def Text.Pattern.goesOver (p : Pattern) (text : Chars) : Bool :=
  (continuations text).any fun place =>
    p.covers text place || p.covers (joinLines text) (joinedPlace text place)

section

variable {p : Pattern} {text before rest : Chars} {m : Match}

theorem covers_of_matchBetween {place : Nat} (h : p.matchBetween before rest = some m)
    (hstart : before.length ≤ place) (hend : place < before.length + m.whole.length) :
    p.covers (before ++ rest) place = true := by
  refine List.any_eq_true.mpr ⟨before.length, List.mem_range.mpr (Nat.lt_succ_of_le hstart), ?_⟩
  rw [List.take_left, List.drop_left, h]
  exact decide_eq_true hend

theorem mem_continuations (h : startsContinuation rest = true) : before.length ∈ continuations (before ++ rest) := by
  have hne : rest ≠ [] := by
    rintro rfl
    cases h
  refine List.mem_filter.mpr ⟨List.mem_range.mpr ?_, ?_⟩
  · rw [List.length_append]
    exact Nat.lt_add_of_pos_right (List.length_pos_iff.mpr hne)
  · rw [List.drop_left]
    exact h

/-- Where no match goes over a continuation, one that starts before a continuation ends before it. -/
theorem length_le_of_goesOver (hover : p.goesOver text = false) {front back : Chars}
    (htext : text = front ++ back) (hcontinues : startsContinuation back = true)
    (h : p.matchBetween before rest = some m) :
    (text = before ++ rest → before.length ≤ front.length →
        before.length + m.whole.length ≤ front.length) ∧
      (joinLines text = before ++ rest → before.length ≤ (joinLines front).length →
        before.length + m.whole.length ≤ (joinLines front).length) := by
  have hplace : front.length ∈ continuations text := htext ▸ mem_continuations hcontinues
  have hnone := List.any_eq_false.mp hover _ hplace
  simp only [Bool.or_eq_true, not_or, Bool.not_eq_true] at hnone
  have hjoined : joinedPlace text front.length = (joinLines front).length := by
    rw [joinedPlace, htext, List.take_left]
  constructor
  · intro hsame hle
    refine Nat.not_lt.mp fun hlt => ?_
    have hcovers := covers_of_matchBetween h hle hlt
    rw [← hsame, hnone.1] at hcovers
    cases hcovers
  · intro hsame hle
    refine Nat.not_lt.mp fun hlt => ?_
    have hcovers := covers_of_matchBetween h hle hlt
    rw [← hsame, ← hjoined, hnone.2] at hcovers
    cases hcovers

/-! ## One form of call -/

/-- What stands in a text stands in the joined text at the place that belongs to it. -/
theorem matchBetween_joinLines (hp : p.SelfContained) (hover : p.goesOver (before ++ rest) = false)
    (h : p.matchBetween before rest = some m) :
    joinLines (before ++ rest) = joinLines before ++ joinLines rest ∧
      p.matchBetween (joinLines before) (joinLines rest) =
        some { m with skipped := (joinLines before).length } := by
  obtain ⟨⟨after, hstands⟩, hreads⟩ := reads_of_matchBetween h
  obtain ⟨c, more, hwhole, hc⟩ := hp.solid hreads
  have hfree : FreeBefore m.whole after := by
    intro a b hsplit hne
    rw [← Bool.not_eq_true]
    intro hcontinues
    -- A continuation that starts in the match would be gone over by it.
    have htext : before ++ rest = before ++ a ++ (b ++ after) := by
      rw [← hstands, hsplit]
      simp
    have hle := (length_le_of_goesOver hover htext hcontinues h).1 rfl (by simp)
    have hpos := List.length_pos_iff.mpr hne
    rw [hsplit] at hle
    simp only [List.length_append] at hle
    omega
  have hrest : joinLines rest = m.whole ++ joinLines after := by
    rw [← hstands]
    exact joinLines_append_free hfree
  have htext : joinLines (before ++ rest) = joinLines before ++ joinLines rest := by
    rw [← hstands, hwhole]
    exact joinLines_append hc
  refine ⟨htext, ?_⟩
  rw [hrest]
  exact matchBetween_of_takes (hp.takes hreads) (joinLines before)

/-- What stands in the joined text stands in the text at a place that the other one belongs to. -/
theorem exists_of_matchBetween_joinLines (hp : p.SelfContained) (hover : p.goesOver text = false)
    (htext : joinLines text = before ++ rest) (h : p.matchBetween before rest = some m) :
    ∃ front back, text = front ++ back ∧ joinLines front = before ∧
      (p.matchBetween front back).isSome = true := by
  obtain ⟨⟨after, hstands⟩, hreads⟩ := reads_of_matchBetween h
  obtain ⟨c, more, hwhole, hc⟩ := hp.solid hreads
  have hlifted : joinLines text = before ++ c :: (more ++ after) := by
    rw [htext, ← hstands, hwhole]
    rfl
  obtain ⟨front, tail, hsplit, hfront, hback⟩ := exists_of_joinLines hc hlifted
  obtain ⟨x, y, hxy, hfree, hend⟩ := exists_continuation (c :: tail)
  have hjoined : x ++ joinLines y = m.whole ++ after := by
    rw [← joinLines_append_free hfree, ← hxy, hback, hwhole]
    rfl
  -- The match ends before the first continuation after its place.
  have hle : m.whole.length ≤ x.length := by
    rcases hend with rfl | hcontinues
    · have hlength := congrArg List.length hjoined
      have hnil : joinLines [] = [] := rfl
      rw [hnil, List.append_nil, List.length_append] at hlength
      omega
    · have hplace : joinLines (front ++ x) = before ++ x := by
        cases x with
        | nil => rw [List.append_nil, List.append_nil, hfront]
        | cons d x =>
            obtain ⟨rfl, -⟩ := List.cons.inj hxy
            rw [joinLines_append hc, hfront, hfree.joinLines_eq]
      have hcut : text = front ++ x ++ y := by rw [hsplit, hxy, List.append_assoc]
      have hbound := (length_le_of_goesOver hover hcut hcontinues h).2 htext (by rw [hplace]; simp)
      rw [hplace, List.length_append] at hbound
      omega
  have hprefix : m.whole <+: x :=
    List.prefix_of_prefix_length_le ⟨after, hjoined.symm⟩ (List.prefix_append x _) hle
  obtain ⟨left, rfl⟩ := hprefix
  refine ⟨front, c :: tail, hsplit, hfront, ?_⟩
  rw [hxy, List.append_assoc, matchBetween_of_takes (hp.takes hreads)]
  rfl

/-- Later places of a text belong to later places of the joined text, if something stands at the earlier
one. -/
theorem length_joinLines_lt {front back : Chars} {c : Char} (hc : isBlank c = false)
    (hsame : before ++ c :: rest = front ++ back) (hlt : before.length < front.length) :
    (joinLines before).length < (joinLines front).length := by
  obtain ⟨middle, rfl⟩ : before <+: front :=
    List.prefix_of_prefix_length_le ⟨c :: rest, hsame⟩ (List.prefix_append front back) (Nat.le_of_lt hlt)
  cases middle with
  | nil => simp at hlt
  | cons d middle =>
      rw [List.append_assoc] at hsame
      obtain ⟨rfl, -⟩ := List.cons.inj (List.append_cancel_left hsame)
      have hmiddle := List.length_pos_iff.mpr (joinLines_ne_nil (List.cons_ne_nil c middle))
      rw [joinLines_append hc, List.length_append]
      omega

/-- Where the call of a match starts, something stands. -/
theorem exists_cons_of_matchBetween (hp : p.SelfContained) (h : p.matchBetween before rest = some m) :
    ∃ c more, rest = c :: more ∧ isBlank c = false := by
  obtain ⟨⟨after, rfl⟩, hreads⟩ := reads_of_matchBetween h
  obtain ⟨c, more, hwhole, hc⟩ := hp.solid hreads
  exact ⟨c, more ++ after, by rw [hwhole]; rfl, hc⟩

/-- The first match in the joined text is the one that the first match in the text becomes. -/
theorem search_joinLines (hp : p.SelfContained) (hover : p.goesOver text = false) :
    p.search (joinLines text) =
      (p.search text).map fun m => { m with skipped := joinedPlace text m.skipped } := by
  cases hsearch : p.search text with
  | none =>
      rw [Option.map_none, Option.eq_none_iff_forall_ne_some]
      intro m hfound
      obtain ⟨before, rest, htext, hmatch⟩ := exists_of_search hfound
      obtain ⟨front, back, hsplit, -, hmatch⟩ := exists_of_matchBetween_joinLines hp hover htext hmatch
      have hoccurs := occursIn_of_matchBetween hmatch
      rw [← hsplit, Pattern.occursIn, hsearch] at hoccurs
      cases hoccurs
  | some m =>
      obtain ⟨before, rest, rfl, hmatch, hnone⟩ := exists_first_of_search hsearch
      obtain ⟨htext, hjoined⟩ := matchBetween_joinLines hp hover hmatch
      have hfirst : p.NoneBefore (joinLines before) (joinLines rest) := by
        intro front back hsplit hlt
        rw [Option.eq_none_iff_forall_ne_some]
        intro found hfound
        obtain ⟨start, tail, hstart, rfl, hsome⟩ :=
          exists_of_matchBetween_joinLines hp hover (htext.trans hsplit) hfound
        obtain ⟨other, hother⟩ := Option.isSome_iff_exists.mp hsome
        -- No match starts before the first one, and a later one would be later in the joined text.
        rcases Nat.lt_trichotomy start.length before.length with hbefore | heq | hafter
        · rw [hnone start tail hstart hbefore] at hother
          cases hother
        · obtain ⟨rfl, -⟩ := List.append_inj hstart heq.symm
          exact Nat.lt_irrefl _ hlt
        · obtain ⟨c, more, rfl, hc⟩ := exists_cons_of_matchBetween hp hmatch
          exact Nat.lt_asymm hlt (length_joinLines_lt hc hstart hafter)
      have hskipped : joinedPlace (before ++ rest) m.skipped = (joinLines before).length := by
        rw [skipped_of_matchBetween hmatch, joinedPlace, List.take_left]
      rw [htext, search_of_first hjoined hfirst, Option.map_some, hskipped]

end

/-! ## All forms of call -/

/-- A script does the same with its continuation lines joined: no call of a tool goes over a continuation,
and joining does not leave it blank. -/
structure JoinsCleanly (run : Chars) : Prop where
  calls : ∀ tool ∈ tools, ∀ call ∈ tool.calls, call.goesOver run = false
  script : (joinLines run).all isBlank = true → run.all isBlank = true

theorem joinsCleanly_iff {run : Chars} : JoinsCleanly run ↔
    (∀ tool ∈ tools, ∀ call ∈ tool.calls, call.goesOver run = false) ∧
      ((joinLines run).all isBlank = true → run.all isBlank = true) :=
  ⟨fun h => ⟨h.calls, h.script⟩, fun h => ⟨h.1, h.2⟩⟩

instance (run : Chars) : Decidable (JoinsCleanly run) := decidable_of_iff' _ joinsCleanly_iff

section

variable {run : Chars}

/-- The first call of every form is found at the place that belongs to it. -/
theorem firstCalls_joinLines (h : JoinsCleanly run) :
    firstCalls (joinLines run) = (firstCalls run).map fun call => (joinedPlace run call.1, call.2) := by
  unfold firstCalls
  rw [List.map_flatMap]
  refine List.flatMap_congr fun tool htool => ?_
  rw [List.map_filterMap]
  refine List.filterMap_congr fun call hcall => ?_
  rw [search_joinLines (selfContained_of_mem_calls htool hcall) (h.calls tool htool call hcall)]
  cases call.search run <;> rfl

/-- Calls stand in the same order in the joined text. -/
theorem joinedPlace_lt_iff {a b : Nat × OperationKind} (ha : a ∈ firstCalls run) (hb : b ∈ firstCalls run) :
    joinedPlace run a.1 < joinedPlace run b.1 ↔ a.1 < b.1 := by
  have later : ∀ {a b : Nat × OperationKind}, a ∈ firstCalls run → b ∈ firstCalls run → a.1 < b.1 →
      joinedPlace run a.1 < joinedPlace run b.1 := by
    rintro ⟨_, _⟩ ⟨_, _⟩ ha hb hlt
    obtain ⟨tool, htool, -, call, hcall, found, hfound, rfl⟩ := mem_firstCalls.mp ha
    obtain ⟨-, -, -, call', -, found', hfound', rfl⟩ := mem_firstCalls.mp hb
    obtain ⟨before, rest, rfl, hmatch⟩ := exists_of_search hfound
    obtain ⟨before', rest', htext, hmatch'⟩ := exists_of_search hfound'
    obtain ⟨c, more, rfl, hc⟩ := exists_cons_of_matchBetween (selfContained_of_mem_calls htool hcall) hmatch
    rw [skipped_of_matchBetween hmatch, skipped_of_matchBetween hmatch'] at hlt ⊢
    have hplace : joinedPlace (before ++ c :: more) before'.length = (joinLines before').length := by
      rw [joinedPlace, htext, List.take_left]
    rw [hplace, joinedPlace, List.take_left]
    exact length_joinLines_lt hc htext hlt
  constructor
  · intro hlt
    rcases Nat.lt_trichotomy a.1 b.1 with h | h | h
    · exact h
    · rw [h] at hlt
      exact absurd hlt (Nat.lt_irrefl _)
    · exact absurd (later hb ha h) (Nat.lt_asymm hlt)
  · exact later ha hb

theorem foldl_earliest_map {place : Nat → Nat} {first : Nat × OperationKind}
    {rest : List (Nat × OperationKind)}
    (h : ∀ a ∈ first :: rest, ∀ b ∈ first :: rest, place a.1 < place b.1 ↔ a.1 < b.1) :
    (rest.map fun call => (place call.1, call.2)).foldl
        (fun best call => if call.1 < best.1 then call else best) (place first.1, first.2) =
      (place (rest.foldl (fun best call => if call.1 < best.1 then call else best) first).1,
        (rest.foldl (fun best call => if call.1 < best.1 then call else best) first).2) := by
  induction rest generalizing first with
  | nil => rfl
  | cons a rest ih =>
      have hfirst := h a (by simp) first (by simp)
      rw [List.map_cons, List.foldl_cons, List.foldl_cons]
      by_cases hlt : a.1 < first.1
      · rw [if_pos hlt, if_pos (hfirst.mpr hlt)]
        exact ih fun x hx y hy => h x (List.mem_cons_of_mem first hx) y (List.mem_cons_of_mem first hy)
      · rw [if_neg hlt, if_neg fun hplace => hlt (hfirst.mp hplace)]
        refine ih fun x hx y hy => h x ?_ y ?_
        · exact List.cons_subset_cons first (List.subset_cons_self a rest) hx
        · exact List.cons_subset_cons first (List.subset_cons_self a rest) hy

/-- The earliest of some calls does not change with places that keep their order. -/
theorem earliest?_map {place : Nat → Nat} {calls : List (Nat × OperationKind)}
    (h : ∀ a ∈ calls, ∀ b ∈ calls, place a.1 < place b.1 ↔ a.1 < b.1) :
    earliest? (calls.map fun call => (place call.1, call.2)) = earliest? calls := by
  cases calls with
  | nil => rfl
  | cons first rest => exact congrArg (fun best => some best.2) (foldl_earliest_map h)

theorem earliest?_joinLines (h : JoinsCleanly run) :
    earliest? (firstCalls (joinLines run)) = earliest? (firstCalls run) := by
  rw [firstCalls_joinLines h]
  exact earliest?_map fun a ha b hb => joinedPlace_lt_iff ha hb

/-- Of a tool's forms of call the same one is the first that occurs, with the same subcommand. -/
theorem findSome?_joinLines {calls : List Pattern}
    (h : ∀ call ∈ calls, call.SelfContained ∧ call.goesOver run = false) :
    calls.findSome? (fun call => call.search (joinLines run)) =
      (calls.findSome? fun call => call.search run).map fun m =>
        { m with skipped := joinedPlace run m.skipped } := by
  induction calls with
  | nil => rfl
  | cons call calls ih =>
      obtain ⟨⟨hcall, hover⟩, hmore⟩ := List.forall_mem_cons.mp h
      rw [List.findSome?_cons, List.findSome?_cons, search_joinLines hcall hover, ih hmore]
      cases call.search run <;> rfl

/-- Joining makes no script blank, and none that was blank says something afterwards. -/
theorem all_isBlank_joinLines (h : JoinsCleanly run) : (joinLines run).all isBlank = run.all isBlank := by
  refine Bool.eq_iff_iff.mpr ⟨h.script, fun hall => List.all_eq_true.mpr fun c hc => ?_⟩
  rcases mem_of_mem_joinLinesFrom hc with rfl | hmem
  · decide
  · exact List.all_eq_true.mp hall c hmem

end

/-! ## Jobs with joined lines -/

/-- A table with the value under a text key changed. -/
def Table.mapField (entries : Table) (name : String) (change : Tree → Tree) : Table :=
  entries.map fun entry => if entry.1.same (.text name) then (entry.1, change entry.2) else entry

/-- A text with its continuation lines joined; anything else as it is. -/
def Tree.joined : Tree → Tree
  | .text script => .text (String.ofList (joinLines script.toList))
  | other => other

/-- A step with the lines of what it runs joined. -/
def joinedStep (step : Table) : Table := step.mapField "run" Tree.joined

/-- An item of a list of steps: a step if it is a table. -/
def Tree.joinedItem : Tree → Tree
  | .table step => .table (joinedStep step)
  | other => other

/-- Steps with the lines of what they run joined. -/
def Tree.joinedSteps : Tree → Tree
  | .list steps => .list (steps.map Tree.joinedItem)
  | other => other

/-- A script, or the lines of one, with continuation lines joined. -/
def Tree.joinedScript : Tree → Tree
  | .list lines => .list (lines.map Tree.joined)
  | other => other.joined

/-- A job in which the lines of what every step runs are joined. -/
def Tree.withJoinedRuns : Tree → Tree
  | .table job =>
    .table (Table.mapField (Table.mapField job "steps" Tree.joinedSteps) "script" Tree.joinedScript)
  | other => other

section

variable {entries step : Table} {name other : String} {change : Tree → Tree}

theorem Table.field?_cons {entry : Scalar × Tree} :
    field? (entry :: entries) name = if entry.1.same (.text name) then some entry.2 else field? entries name := by
  unfold field? get?
  rw [List.find?_cons]
  cases entry.1.same (.text name) <;> rfl

theorem Table.field?_mapField_self :
    (entries.mapField name change).field? name = (entries.field? name).map change := by
  induction entries with
  | nil => rfl
  | cons entry rest ih =>
      unfold mapField at ih ⊢
      rw [List.map_cons, field?_cons, field?_cons, ih]
      cases hkey : entry.1.same (.text name) <;> simp [hkey]

theorem Table.field?_mapField_of_ne (hne : other ≠ name) :
    (entries.mapField name change).field? other = entries.field? other := by
  induction entries with
  | nil => rfl
  | cons entry rest ih =>
      unfold mapField at ih ⊢
      rw [List.map_cons, field?_cons, field?_cons, ih]
      cases hkey : entry.1.same (.text name) with
      | false => rfl
      | true =>
          have hother : entry.1.same (.text other) = false := by
            rw [Scalar.eq_text_of_same hkey, Scalar.same_text]
            exact beq_false_of_ne (Ne.symm hne)
          simp [hother]

theorem Table.field_mapField_self (hnull : change .null = .null) :
    (entries.mapField name change).field name = change (entries.field name) := by
  unfold Table.field
  rw [field?_mapField_self]
  cases entries.field? name with
  | none => exact hnull.symm
  | some value => rfl

theorem Table.field_mapField_of_ne (hne : other ≠ name) :
    (entries.mapField name change).field other = entries.field other := by
  unfold Table.field
  rw [field?_mapField_of_ne hne]

theorem joinedStep_text?_of_ne (hne : name ≠ "run") : (joinedStep step).text? name = step.text? name := by
  unfold Table.text? joinedStep
  rw [Table.field?_mapField_of_ne hne]

theorem joinedStep_text?_run (step : Table) :
    (joinedStep step).text? "run" =
      (step.text? "run").map fun run => String.ofList (joinLines run.toList) := by
  unfold Table.text? joinedStep
  rw [Table.field?_mapField_self]
  cases step.field? "run" with
  | none => rfl
  | some value =>
      cases value with
      | leaf scalar => cases scalar <;> rfl
      | list items => rfl
      | table entries => rfl

/-- What a step with joined lines has written in it is what the step runs. -/
theorem rawRunText_joinedStep (step : Table) : rawRunText (joinedStep step) = runText step := by
  unfold rawRunText runText
  rw [joinedStep_text?_run]
  cases step.text? "run" <;> rfl

theorem runText_eq (step : Table) : runText step = String.ofList (joinLines (rawRunText step).toList) := by
  unfold rawRunText runText
  cases step.text? "run" <;> rfl

theorem runText_joinedStep (step : Table) : runText (joinedStep step) = runText step := by
  rw [runText_eq, rawRunText_joinedStep, joinLines_runText, String.ofList_toList]

theorem usesText_joinedStep (step : Table) : usesText (joinedStep step) = usesText step := by
  unfold usesText
  rw [joinedStep_text?_of_ne (by decide)]

/-! ### The steps of a job -/

/-- Joining the lines of a script joins those of its steps. -/
theorem scriptSteps_joined (index : Nat) (lines : List Tree) :
    scriptSteps index (lines.map Tree.joined) = (scriptSteps index lines).map joinedStep := by
  induction lines generalizing index with
  | nil => rfl
  | cons line lines ih =>
      cases line with
      | leaf scalar =>
          cases scalar with
          | text script => exact congrArg _ (ih (index + 1))
          | null | bool _ | number _ => exact ih (index + 1)
      | list items => exact ih (index + 1)
      | table entries => exact ih (index + 1)

theorem table?_joinedItem (item : Tree) : item.joinedItem.table? = item.table?.map joinedStep := by
  cases item <;> rfl

/-- The steps of a job with joined lines are its steps with joined lines. -/
theorem jobSteps_withJoinedRuns (job : Tree) : jobSteps job.withJoinedRuns = (jobSteps job).map joinedStep := by
  have hsteps : job.withJoinedRuns.field "steps" = (job.field "steps").joinedSteps := by
    cases job with
    | leaf _ => rfl
    | list _ => rfl
    | table job => exact (Table.field_mapField_of_ne (by decide)).trans (Table.field_mapField_self rfl)
  have hscript : job.withJoinedRuns.field "script" = (job.field "script").joinedScript := by
    cases job with
    | leaf _ => rfl
    | list _ => rfl
    | table job =>
        refine (Table.field_mapField_self rfl).trans (congrArg _ ?_)
        exact Table.field_mapField_of_ne (by decide)
  unfold jobSteps
  rw [hsteps, hscript]
  cases job.field "steps" with
  | list steps =>
      refine List.filterMap_map.trans (Eq.trans ?_ List.map_filterMap.symm)
      exact List.filterMap_congr fun item _ => table?_joinedItem item
  | leaf _ | table _ =>
      -- A job without a list of steps runs its script.
      cases job.field "script" with
      | leaf scalar => cases scalar <;> rfl
      | list lines => exact scriptSteps_joined 0 lines
      | table entries => rfl

theorem field_withJoinedRuns (job : Tree) (hsteps : name ≠ "steps") (hscript : name ≠ "script") :
    job.withJoinedRuns.field name = job.field name := by
  cases job with
  | leaf _ => rfl
  | list _ => rfl
  | table job => exact (Table.field_mapField_of_ne hscript).trans (Table.field_mapField_of_ne hsteps)

/-! ### Operations -/

theorem operationKind?_joinedStep (h : JoinsCleanly (rawRunText step).toList) :
    operationKind? (joinedStep step) = operationKind? step := by
  have hjoined : (runText step).toList = joinLines (rawRunText step).toList := by
    rw [runText_eq, String.toList_ofList]
  unfold operationKind?
  rw [rawRunText_joinedStep, usesText_joinedStep, strip_isEmpty_eq, strip_isEmpty_eq, hjoined,
    earliest?_joinLines h, all_isBlank_joinLines h]

theorem operationCommand_joinedStep (h : JoinsCleanly (rawRunText step).toList) (kind : OperationKind) :
    operationCommand (joinedStep step) kind = operationCommand step kind := by
  have hjoined : (runText step).toList = joinLines (rawRunText step).toList := by
    rw [runText_eq, String.toList_ofList]
  unfold operationCommand
  rw [rawRunText_joinedStep, joinedStep_text?_of_ne (by decide), hjoined]
  cases htool : tools.find? fun tool => tool.kind == kind with
  | none => rfl
  | some tool =>
      have hmem := List.mem_of_find?_eq_some htool
      simp only
      rw [findSome?_joinLines fun call hcall => ⟨selfContained_of_mem_calls hmem hcall, h.calls tool hmem call hcall⟩]
      cases tool.calls.findSome? fun call => call.search (rawRunText step).toList <;> rfl

theorem workingDir?_joinedStep (job : Tree) (text : String) :
    workingDir? (joinedStep step) job.withJoinedRuns text = workingDir? step job text := by
  unfold workingDir?
  rw [joinedStep_text?_of_ne (by decide), field_withJoinedRuns job (by decide) (by decide)]

end

/-- Joining the continuation lines of what the steps of a job run changes neither text nor directory of
any operation, and outputs only with the kind.  Where no call goes over a continuation and no script
becomes blank, it changes nothing. -/
theorem operations_withJoinedRuns (job : Tree) :
    (∀ o ∈ operations job, ∀ o' ∈ operations job.withJoinedRuns, o.stepIndex = o'.stepIndex →
        o'.text = o.text ∧ o'.workingDir = o.workingDir ∧ (o'.kind = o.kind → o'.outputs = o.outputs)) ∧
      ((∀ step ∈ jobSteps job, JoinsCleanly (rawRunText step).toList) →
        operations job.withJoinedRuns = operations job) := by
  constructor
  · intro o ho o' ho' hindex
    obtain ⟨index, step, hstep, hread⟩ := mem_operations.mp ho
    obtain ⟨index', step', hstep', hread'⟩ := mem_operations.mp ho'
    obtain ⟨kind, -, rfl⟩ := Option.map_eq_some_iff.mp hread
    obtain ⟨kind', -, rfl⟩ := Option.map_eq_some_iff.mp hread'
    obtain rfl : index = index' := hindex
    rw [jobSteps_withJoinedRuns, List.getElem?_map, hstep] at hstep'
    obtain rfl : joinedStep step = step' := Option.some.inj hstep'
    simp only [runText_joinedStep, usesText_joinedStep, workingDir?_joinedStep, true_and]
    intro hkind
    rw [hkind]
  · intro hclean
    unfold operations
    rw [jobSteps_withJoinedRuns, List.zipIdx_map, List.filterMap_map]
    refine List.filterMap_congr fun ⟨step, index⟩ hmem => ?_
    have hstep := hclean step (List.fst_mem_of_mem_zipIdx hmem)
    have hread : operation? job.withJoinedRuns index (joinedStep step) = operation? job index step := by
      unfold operation?
      rw [operationKind?_joinedStep hstep]
      refine congrArg (fun read => (operationKind? step).map read) (funext fun kind => ?_)
      simp only [operationCommand_joinedStep hstep, runText_joinedStep, usesText_joinedStep,
        workingDir?_joinedStep]
    exact hread

/-- A job whose steps run some texts. -/
def runJob (runs : List String) : Tree :=
  .table [(.text "steps", .list (runs.map fun run => .table [(.text "run", .text run)]))]

/-- A script whose continuations stand after a call, and one without a call. -/
def brokenAfterCall : List String :=
  ["helm upgrade web ./chart \\\n  --set image=$(terraform output image)", "echo \\\r\n done"]

/-- They do the same with their lines joined. -/
theorem operations_withJoinedRuns_afterCall :
    (∀ step ∈ jobSteps (runJob brokenAfterCall), JoinsCleanly (rawRunText step).toList) ∧
      (operations (runJob brokenAfterCall).withJoinedRuns).map (fun o => (o.kind, o.command)) =
        [(.helm, "upgrade"), (.script, "script")] := by
  have hclean : ∀ step ∈ jobSteps (runJob brokenAfterCall), JoinsCleanly (rawRunText step).toList := by
    decide +kernel
  refine ⟨hclean, ?_⟩
  rw [(operations_withJoinedRuns (runJob brokenAfterCall)).2 hclean]
  decide +kernel

/-- A call with a continuation in it is one of Helm only with its lines joined. -/
theorem operations_of_brokenCall : ¬ ∀ job : Tree, operations job.withJoinedRuns = operations job := by
  intro same
  exact absurd (same (runJob ["helm \\\n  upgrade web ./chart"])) (by decide +kernel)

end DeployTrace
