/-
  DeployTrace/Proofs/WrittenParts.lean --- what is written of a workflow is part of it.

  WHAT THIS FILE IS FOR.  Whether a workflow is named and read, and whether a detector returns or a graph is
  made, is said elsewhere by lists of what is written on the way.  Every value on these lists is part of the
  workflow, or a text.  So of a workflow in which no integer has too many digits, only names are left to be
  refused: that of the file, those of its jobs, and those of the outputs that flow.
-/
import DeployTrace.Limited.Graph
import DeployTrace.Proofs.LimitedSessions

set_option autoImplicit false

namespace DeployTrace

namespace Limits

variable {l : Limits} {t : Tree} {entries : Table} {items : List Tree}

/-! ## Parts of a value -/

theorem admits_written_iff : l.Admits (.written t) ↔ ∀ most ∈ l.mostDigits, t.reaches (Nat.pow 10 most) = false := by
  unfold Admits refusal?
  cases l.mostDigits <;> simp

theorem entriesReach_eq_false_iff {size : Nat} : entriesReach size entries = false ↔
    ∀ entry ∈ entries, entry.1.reaches size = false ∧ entry.2.reaches size = false := by
  induction entries with
  | nil => simp [entriesReach]
  | cons entry rest ih => simp [entriesReach, ih, and_assoc]

theorem itemsReach_eq_false_iff {size : Nat} : itemsReach size items = false ↔
    ∀ item ∈ items, item.reaches size = false := by
  induction items with
  | nil => simp [itemsReach]
  | cons item rest ih => simp [itemsReach, ih]

/-- A table is written exactly if all its keys and values are. -/
theorem admits_table_iff : l.Admits (.written (.table entries)) ↔
    ∀ entry ∈ entries, l.Admits (.key entry.1) ∧ l.Admits (.written entry.2) := by
  simp only [admits_written_iff, Tree.reaches, entriesReach_eq_false_iff]
  exact ⟨fun h entry hentry => ⟨fun most hmost => (h most hmost entry hentry).1,
      fun most hmost => (h most hmost entry hentry).2⟩,
    fun h most hmost entry hentry => ⟨(h entry hentry).1 most hmost, (h entry hentry).2 most hmost⟩⟩

/-- A list is written exactly if all its items are. -/
theorem admits_list_iff : l.Admits (.written (.list items)) ↔ ∀ item ∈ items, l.Admits (.written item) := by
  simp only [admits_written_iff, Tree.reaches, itemsReach_eq_false_iff]
  exact ⟨fun h item hitem most hmost => h most hmost item hitem,
    fun h most hmost item hitem => h item hitem most hmost⟩

theorem admits_text (text : String) : l.Admits (.written (.text text)) :=
  admits_written_iff.mpr fun _ _ => rfl

theorem admits_null : l.Admits (.written .null) := admits_written_iff.mpr fun _ _ => rfl

end Limits

/-! ## Canonical texts

All that stands in a canonical text stands in the value, of which some entries may be left out. -/

section

variable {size : Nat}

mutual

theorem Tree.keysReach_eq_false : ∀ t : Tree, t.reaches size = false → t.keysReach size = false
  | .leaf _, _ => rfl
  | .list items, h => itemKeysReach_eq_false items h
  | .table entries, h => entryKeysReach_eq_false entries h

theorem itemKeysReach_eq_false : ∀ items : List Tree, itemsReach size items = false →
    itemKeysReach size items = false
  | [], _ => rfl
  | t :: rest, h => by
      obtain ⟨first, more⟩ := Bool.or_eq_false_iff.mp h
      exact Bool.or_eq_false_iff.mpr ⟨t.keysReach_eq_false first, itemKeysReach_eq_false rest more⟩

theorem entryKeysReach_eq_false : ∀ entries : List (Scalar × Tree), entriesReach size entries = false →
    entryKeysReach size entries = false
  | [], _ => rfl
  | (key, value) :: rest, h => by
      obtain ⟨first, more⟩ := Bool.or_eq_false_iff.mp h
      obtain ⟨hkey, hvalue⟩ := Bool.or_eq_false_iff.mp first
      simp only [entryKeysReach, hkey, value.keysReach_eq_false hvalue, entryKeysReach_eq_false rest more]
      rfl

end

mutual

theorem Tree.valuesReach_eq_false : ∀ t : Tree, t.reaches size = false → t.valuesReach size = false
  | .leaf _, h => h
  | .list items, h => itemValuesReach_eq_false items h
  | .table entries, h => by
      refine List.any_eq_false.mpr fun pair hpair => ?_
      simp [entryValuesReach_eq_false entries h pair (Entries.mem_of_mem_ofList hpair)]

theorem itemValuesReach_eq_false : ∀ items : List Tree, itemsReach size items = false →
    itemValuesReach size items = false
  | [], _ => rfl
  | t :: rest, h => by
      obtain ⟨first, more⟩ := Bool.or_eq_false_iff.mp h
      exact Bool.or_eq_false_iff.mpr ⟨t.valuesReach_eq_false first, itemValuesReach_eq_false rest more⟩

theorem entryValuesReach_eq_false : ∀ entries : List (Scalar × Tree), entriesReach size entries = false →
    ∀ pair ∈ entryValuesReach size entries, pair.2 = false
  | [], _, _, hpair => absurd hpair List.not_mem_nil
  | (key, value) :: rest, h, pair, hpair => by
      obtain ⟨first, more⟩ := Bool.or_eq_false_iff.mp h
      rcases List.mem_cons.mp hpair with rfl | hpair
      · exact value.valuesReach_eq_false (Bool.or_eq_false_iff.mp first).2
      · exact entryValuesReach_eq_false rest more pair hpair

end

end

namespace Limits

variable {l : Limits} {t : Tree} {workflow job entries : Table} {file : String}

theorem admits_canonical (h : l.Admits (.written t)) : l.Admits (.canonical t) := by
  have reaches := admits_written_iff.mp h
  unfold Admits refusal?
  cases hmost : l.mostDigits with
  | none => rfl
  | some most =>
      have short := reaches most hmost
      simp only [Option.filter_some, t.keysReach_eq_false short, t.valuesReach_eq_false short]
      rfl

/-! ## Parts of a workflow -/

theorem admits_of_get? (h : l.Admits (.written (.table entries))) {key : Scalar} {value : Tree}
    (hget : Table.get? entries key = some value) : l.Admits (.written value) := by
  obtain ⟨entry, hentry, rfl⟩ := Option.map_eq_some_iff.mp hget
  exact (admits_table_iff.mp h entry (List.mem_of_find?_eq_some hentry)).2

theorem admits_getD (h : l.Admits (.written (.table entries))) (key : Scalar) :
    l.Admits (.written ((Table.get? entries key).getD .null)) := by
  cases hget : Table.get? entries key with
  | none => exact admits_null
  | some value => exact admits_of_get? h hget

theorem admits_field (h : l.Admits (.written t)) (name : String) : l.Admits (.written (t.field name)) := by
  cases t with
  | leaf value => exact admits_null
  | list items => exact admits_null
  | table entries => exact admits_getD h (.text name)

theorem admits_of_table? (h : l.Admits (.written t)) (htable : t.table? = some entries) :
    l.Admits (.written (.table entries)) := by
  cases t with
  | leaf value => cases htable
  | list items => cases htable
  | table own =>
      cases htable
      exact h

theorem admits_orElse (h : l.Admits (.written t)) (text : String) :
    l.Admits (.written (t.orElse (.text text))) := by
  unfold Tree.orElse
  split
  · exact h
  · exact admits_text text

theorem admits_entries (h : l.Admits (.written (.table entries))) : l.AdmitsAll (entryWritings entries) := by
  intro w hw
  obtain ⟨entry, hentry, hw⟩ := List.mem_flatMap.mp hw
  obtain ⟨hkey, hvalue⟩ := admits_table_iff.mp h entry hentry
  simp only [List.mem_cons, List.not_mem_nil, or_false] at hw
  rcases hw with rfl | rfl
  · exact hkey
  · exact hvalue

theorem admits_ownEntries (h : l.Admits (.written t)) :
    l.Admits (.written (.table (t.table?.getD []))) := by
  cases htable : t.table? with
  | none => exact admits_table_iff.mpr fun _ hentry => absurd hentry List.not_mem_nil
  | some entries => exact admits_of_table? h htable

theorem admits_ownItems (h : l.Admits (.written t)) : ∀ item ∈ t.list?.getD [], l.Admits (.written item) := by
  cases t with
  | leaf value => exact fun _ hitem => absurd hitem List.not_mem_nil
  | list items => exact admits_list_iff.mp h
  | table entries => exact fun _ hitem => absurd hitem List.not_mem_nil

theorem admits_scriptSteps {lines : List Tree} {index : Nat} :
    ∀ step ∈ scriptSteps index lines, l.Admits (.written (.table step)) := by
  have texts : ∀ index line, l.Admits (.written (.table (scriptStep index line))) := by
    intro index line
    refine admits_table_iff.mpr (List.forall_mem_cons.mpr ⟨⟨admits_text _, admits_text _⟩, ?_⟩)
    exact List.forall_mem_singleton.mpr ⟨admits_text _, admits_text _⟩
  fun_induction scriptSteps index lines with
  | case1 => exact fun _ hstep => absurd hstep List.not_mem_nil
  | case2 index line rest ih => exact List.forall_mem_cons.mpr ⟨texts index line, ih⟩
  | case3 _ _ _ _ ih => exact ih

theorem admits_jobSteps (h : l.Admits (.written t)) :
    ∀ step ∈ jobSteps t, l.Admits (.written (.table step)) := by
  intro step hstep
  unfold jobSteps at hstep
  split at hstep
  · rename_i steps hsteps
    have hlist := admits_field h "steps"
    rw [hsteps] at hlist
    obtain ⟨item, hitem, htable⟩ := List.mem_filterMap.mp hstep
    exact admits_of_table? (admits_list_iff.mp hlist item hitem) htable
  · split at hstep
    · exact admits_scriptSteps step hstep
    · exact admits_scriptSteps step hstep
    · exact absurd hstep List.not_mem_nil

theorem admits_extractJobs (h : l.Admits (.written (.table workflow))) :
    ∀ entry ∈ extractJobs workflow, l.Admits (.written (.table entry.2)) := by
  intro entry hentry
  unfold extractJobs at hentry
  split at hentry
  · rename_i jobs hjobs
    obtain ⟨⟨key, job⟩, hmem, hlisted⟩ := List.mem_filterMap.mp (Entries.mem_of_mem_ofList hentry)
    have hwritten := (admits_table_iff.mp (admits_of_get? h hjobs) _ hmem).2
    cases job with
    | leaf value => cases hlisted
    | list items => cases hlisted
    | table own =>
        cases hlisted
        exact hwritten
  · exact absurd hentry List.not_mem_nil
  · obtain ⟨⟨key, job⟩, hmem, hlisted⟩ := List.mem_filterMap.mp (Entries.mem_of_mem_ofList hentry)
    have hwritten := (admits_table_iff.mp h _ hmem).2
    unfold topLevelJob? at hlisted
    split at hlisted
    · rename_i hjob
      cases hjob
      split at hlisted
      · cases hlisted
      · split at hlisted
        · cases hlisted
          exact hwritten
        · cases hlisted
    · cases hlisted

/-! ## What detection writes -/

theorem admits_jobKeyWritings (h : l.Admits (.written (.table workflow))) :
    l.AdmitsAll (jobKeyWritings workflow) := by
  intro w hw
  obtain ⟨⟨key, job⟩, hentry, hw⟩ := List.mem_filterMap.mp hw
  dsimp only at hw
  split at hw
  · cases hw
    exact admits_entries (admits_ownEntries (admits_field h "jobs")) _
      (List.mem_flatMap.mpr ⟨(key, job), hentry, List.mem_cons_self⟩)
  · cases hw

theorem envWritings_subset (env : Tree) : envWritings env ⊆ entryWritings (env.table?.getD []) := by
  intro w hw
  obtain ⟨⟨key, value⟩, hentry, hw⟩ := List.mem_flatMap.mp hw
  refine List.mem_flatMap.mpr ⟨(key, value), hentry, ?_⟩
  dsimp only at hw
  split at hw
  · exact absurd hw List.not_mem_nil
  · exact hw

theorem admits_stepWritings {α : Type} {read : Nat → Table → Option α} (h : l.Admits (.written t)) :
    l.AdmitsAll (stepWritings read t) := by
  intro w hw
  obtain ⟨⟨step, index⟩, hstep, hw⟩ := List.mem_flatMap.mp hw
  have hmem := List.fst_mem_of_mem_zipIdx (List.mem_filter.mp hstep).1
  have henv := admits_getD (admits_jobSteps h step hmem) (.text "env")
  exact admits_entries (admits_ownEntries henv) w (envWritings_subset _ hw)

/-- A workflow that could be written as a whole can be named in every file whose name is encoded. -/
theorem names_of_admits (h : l.Admits (.written t)) (encoded : l.Admits (.encoded file)) : l.Names t file :=
  names_iff.mpr ⟨admits_canonical h, encoded⟩

/-- It can also be read. -/
theorem reads_of_admits (h : l.Admits (.written t)) : l.Reads t := by
  rintro table rfl w hw
  rcases List.mem_append.mp hw with hw | hw
  · exact admits_jobKeyWritings h w hw
  · obtain ⟨entry, hentry, hw⟩ := List.mem_flatMap.mp hw
    have hjob := admits_extractJobs h entry hentry
    rcases List.mem_append.mp hw with hw | hw
    · exact admits_stepWritings hjob w hw
    · exact admits_stepWritings hjob w hw

theorem admits_triggerSetting (h : l.Admits (.written (.table workflow))) :
    l.Admits (.written (triggerSetting workflow)) := by
  unfold triggerSetting
  split
  · rename_i hfield
    exact admits_of_get? h hfield
  · exact admits_getD h (.bool true)

theorem admits_triggerWritings (h : l.Admits (.written (.table workflow))) :
    l.AdmitsAll (triggerWritings workflow) := by
  have hsetting := admits_triggerSetting h
  unfold triggerWritings
  split
  · rename_i hlist
    rw [hlist] at hsetting
    exact List.forall_mem_singleton.mpr (admits_list_iff.mp hsetting _ List.mem_cons_self)
  · rename_i htable
    rw [htable] at hsetting
    exact List.forall_mem_singleton.mpr (admits_table_iff.mp hsetting _ List.mem_cons_self).1
  · exact fun _ hw => absurd hw List.not_mem_nil

theorem admits_envTables (h : l.Admits (.written (.table job))) :
    ∀ place ∈ envTables job, l.AdmitsAll (entryWritings place.2.2) := by
  intro place hplace
  rcases List.mem_append.mp hplace with hplace | hplace
  · obtain ⟨env, henv, rfl⟩ := List.mem_map.mp hplace
    exact admits_entries (admits_of_table? (admits_getD h (.text "env")) (Option.mem_toList.mp henv))
  · obtain ⟨⟨step, index⟩, hstep, hplace⟩ := List.mem_filterMap.mp hplace
    obtain ⟨env, henv, rfl⟩ := Option.map_eq_some_iff.mp hplace
    have hwritten := admits_jobSteps h step (List.fst_mem_of_mem_zipIdx hstep)
    exact admits_entries (admits_of_table? (admits_getD hwritten (.text "env")) henv)

theorem admits_artifactNameWritings (h : l.Admits (.written t)) (action : String) :
    l.AdmitsAll (artifactNameWritings action t) := by
  intro w hw
  obtain ⟨⟨step, index⟩, hstep, rfl⟩ := List.mem_map.mp hw
  have hwritten := admits_jobSteps h step (List.fst_mem_of_mem_zipIdx (List.mem_filter.mp hstep).1)
  exact admits_orElse (admits_getD (admits_ownEntries (admits_getD hwritten (.text "with"))) (.text "name")) _

theorem admits_job (h : l.Admits (.written (.table workflow))) (id : String) :
    l.Admits (.written ((Context.ofTable workflow file).job id)) := by
  unfold Context.job
  split
  · rename_i own hget
    exact admits_extractJobs h (id, own) (Entries.mem_of_get? hget)
  · exact admits_null

theorem admits_patternWritings (h : l.Admits (.written (.table workflow))) (pattern : FlowPattern) :
    l.AdmitsAll (patternWritings (.ofTable workflow file) pattern) := by
  have names : ∀ (ids : List String) action,
      l.AdmitsAll (ids.flatMap fun id => artifactNameWritings action ((Context.ofTable workflow file).job id)) := by
    intro ids action w hw
    obtain ⟨id, -, hw⟩ := List.mem_flatMap.mp hw
    exact admits_artifactNameWritings (admits_job h id) action w hw
  cases pattern with
  | outputToEnv =>
      intro w hw
      obtain ⟨entry, hentry, hw⟩ := List.mem_flatMap.mp hw
      obtain ⟨place, hplace, hw⟩ := List.mem_flatMap.mp hw
      exact admits_envTables (admits_extractJobs h entry hentry) place hplace w hw
  | artifactTransfer =>
      unfold patternWritings artifactWritings
      simp only
      split
      · exact fun _ hw => absurd hw List.not_mem_nil
      · exact List.forall_mem_append.mpr ⟨names _ _, names _ _⟩
  | _ => exact fun _ hw => absurd hw List.not_mem_nil

/-- Of such a workflow a detector is refused nothing but the names of flows. -/
theorem admits_detectorWritings_iff (h : l.Admits (.written (.table workflow))) {pattern : FlowPattern}
    {flows : List Flow} : l.AdmitsAll (detectorWritings (.ofTable workflow file) pattern flows) ↔
      ∀ f ∈ flows, l.Admits (.encoded (Flow.idText f.source.jobId f.target.jobId f.source.name)) := by
  constructor
  · intro all f hf
    exact all _ (List.mem_append_right _ (List.mem_flatMap.mpr ⟨f, hf, List.mem_cons_self⟩))
  · intro names
    refine List.forall_mem_append.mpr ⟨admits_patternWritings h pattern, fun w hw => ?_⟩
    obtain ⟨f, hf, hw⟩ := List.mem_flatMap.mp hw
    rcases List.mem_cons.mp hw with rfl | hw
    · exact names f hf
    · exact admits_triggerWritings h w hw

/-! ## What a graph takes -/

theorem admits_triggersWritings (h : l.Admits (.written (.table workflow))) (platform : Platform) :
    l.AdmitsAll (triggersWritings platform workflow) := by
  cases platform with
  | github =>
      intro w hw
      obtain ⟨⟨event, setting⟩, hentry, rfl⟩ := List.mem_map.mp hw
      have hevents := admits_ownEntries (admits_triggerSetting h)
      exact (admits_table_iff.mp hevents _ hentry).1
  | gitlab =>
      intro w hw
      obtain ⟨rule, hrule, hw⟩ := List.mem_filterMap.mp hw
      obtain ⟨entries, hentries, rfl⟩ := Option.map_eq_some_iff.mp hw
      have hrules := admits_field (admits_getD h (.text "workflow")) "rules"
      have hrule := admits_of_table? (admits_ownItems hrules rule hrule) hentries
      cases hcondition : Table.field? entries "if" with
      | none => exact admits_text _
      | some condition => exact admits_of_get? hrule hcondition

theorem admits_jobArtifactWritings (h : l.Admits (.written (.table job))) :
    l.AdmitsAll (jobArtifactWritings job) := by
  refine List.forall_mem_append.mpr ⟨fun w hw => ?_, admits_artifactNameWritings h _⟩
  obtain ⟨setting, hsetting, rfl⟩ := List.mem_map.mp hw
  have htable := admits_of_table? (admits_getD h (.text "artifacts")) (Option.mem_toList.mp hsetting)
  exact admits_orElse (admits_getD htable (.text "name")) _

theorem admits_jobNodeWritings (h : l.Admits (.written (.table job))) {name : String}
    (encoded : l.Admits (.encoded (jobText file name))) : l.AdmitsAll (jobNodeWritings file name job) := by
  have shown : l.Admits (.written ((Table.field job "name").orElse (.text name))) :=
    admits_orElse (admits_getD h (.text "name")) name
  have head : l.AdmitsAll [.encoded (jobText file name), .written ((Table.field job "name").orElse (.text name))] :=
    List.forall_mem_cons.mpr ⟨encoded, List.forall_mem_singleton.mpr shown⟩
  exact List.forall_mem_append.mpr ⟨List.forall_mem_append.mpr ⟨head, admits_jobArtifactWritings h⟩,
    admits_entries (admits_ownEntries (admits_getD h (.text "outputs")))⟩

/-- Of such a workflow a graph is refused nothing but the names of the pipeline and the jobs. -/
theorem admits_graphWritings_iff (h : l.Admits (.written (.table workflow))) :
    l.AdmitsAll (graphWritings file workflow) ↔ l.Admits (.encoded (pipelineText file)) ∧
      ∀ name ∈ (extractJobs workflow).names, l.Admits (.encoded (jobText file name)) := by
  constructor
  · intro all
    refine ⟨all _ (by simp [graphWritings]), fun name hname => ?_⟩
    obtain ⟨entry, hentry, rfl⟩ := List.mem_map.mp hname
    exact all _ (List.mem_append_right _ (List.mem_flatMap.mpr ⟨entry, hentry, List.mem_cons_self⟩))
  · rintro ⟨pipeline, jobs⟩
    have first := List.forall_mem_cons.mpr ⟨pipeline, admits_jobKeyWritings h⟩
    have second := List.forall_mem_cons.mpr ⟨admits_orElse (admits_getD h (.text "name")) file,
      admits_triggersWritings h (platformOf workflow)⟩
    refine List.forall_mem_append.mpr ⟨List.forall_mem_append.mpr ⟨first, second⟩, fun w hw => ?_⟩
    obtain ⟨entry, hentry, hw⟩ := List.mem_flatMap.mp hw
    have encoded := jobs entry.1 (List.mem_map_of_mem hentry)
    exact admits_jobNodeWritings (admits_extractJobs h entry hentry) encoded w hw

end Limits

end DeployTrace
