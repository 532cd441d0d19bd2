/-
  DeployTrace/Proofs/SettingFaults.lean --- which settings lead to faults that nobody reports.

  WHAT THIS FILE IS FOR.  Settings may have any shape.  Those of detection are converted as they are read,
  and what cannot be converted is mostly a fault that is reported as one of the settings.  Two kinds of
  values are not: those that are neither numbers nor texts, and numbers for which the other kind of number
  has no place, which are integers beyond all fractions and infinite fractions (`Table.EscapesReading`).
  Whatever has been read, detection then works with it.

  Settings of linking are kept as they stand.  One of a wrong kind is a fault where it is first used: the
  least confidence where a node has a score, and the limit at every operation of a tool, even when there is
  no node.  So the same settings are a fault for one workflow and none for another.
-/
import DeployTrace.Proofs.FractionRange
import DeployTrace.Proofs.LinkedOnce
import DeployTrace.Proofs.Safety

set_option autoImplicit false

namespace DeployTrace

/-! ## Steps that succeed -/

section

variable {ε α β : Type}

/-- Two steps succeed when the second one does after the first. -/
theorem bind_succeeds_iff {x : Except ε α} {next : α → Except ε β} :
    (∃ b, (x >>= next) = .ok b) ↔ ∃ a, x = .ok a ∧ ∃ b, next a = .ok b := by
  constructor
  · rintro ⟨b, h⟩
    obtain ⟨a, ha, hb⟩ := exists_of_bind_eq_ok h
    exact ⟨a, ha, b, hb⟩
  · rintro ⟨a, rfl, b, hb⟩
    exact ⟨b, hb⟩

/-- A step that cannot fail adds nothing to this. -/
theorem bind_succeeds_iff_of_total {x : Except ε α} {next : α → Except ε β}
    (total : ∀ a, ∃ b, next a = .ok b) : (∃ b, (x >>= next) = .ok b) ↔ ∃ a, x = .ok a := by
  rw [bind_succeeds_iff]
  constructor
  · rintro ⟨a, ha, -⟩
    exact ⟨a, ha⟩
  · rintro ⟨a, ha⟩
    exact ⟨a, ha, total a⟩

/-- A step for every element succeeds when each of them does. -/
theorem mapM_succeeds_iff {f : α → Except ε β} {xs : List α} :
    (∃ ys, xs.mapM f = .ok ys) ↔ ∀ x ∈ xs, ∃ y, f x = .ok y := by
  constructor
  · rintro ⟨ys, hys⟩ x hx
    obtain ⟨y, -, hy⟩ := (mapM_eq_ok_mem hys).2 x hx
    exact ⟨y, hy⟩
  · intro each
    have accepted : ∀ x ∈ xs, ∃ y, f x = .ok y ∧ True := fun x hx => (each x hx).imp fun _ hy => ⟨hy, trivial⟩
    obtain ⟨ys, hys, -⟩ := mapM_accepts accepted
    exact ⟨ys, hys⟩

end

/-! ## Faults that are not reported -/

/-- A reading fails with a fault that is not reported. -/
def Escapes {α : Type} (reading : Except SettingFault α) : Prop :=
  ∃ fault, reading = .error fault ∧ fault.isReported = false

section

variable {α β : Type}

theorem not_escapes_ok (a : α) : ¬ Escapes (.ok a) := by
  rintro ⟨fault, h, -⟩
  cases h

theorem escapes_error_iff {fault : SettingFault} :
    Escapes (.error fault : Except SettingFault α) ↔ fault.isReported = false := by
  constructor
  · rintro ⟨_, hfault, h⟩
    cases hfault
    exact h
  · exact fun h => ⟨fault, rfl, h⟩

/-- Of two readings in turn one escapes when the first does, or when the second does after it. -/
theorem escapes_bind_iff {reading : Except SettingFault α} {next : α → Except SettingFault β} :
    Escapes (reading >>= next) ↔ Escapes reading ∨ ∃ a, reading = .ok a ∧ Escapes (next a) := by
  cases reading with
  | error fault =>
      have hfault : Escapes (.error fault >>= next) ↔ fault.isReported = false := escapes_error_iff
      rw [hfault, escapes_error_iff]
      simp
  | ok a =>
      have hnext : Escapes (.ok a >>= next) ↔ Escapes (next a) := Iff.rfl
      rw [hnext]
      simp [not_escapes_ok]

theorem readSetting_escapes_iff {own : Table} {name : String} {default : α}
    {read : Tree → Except SettingFault α} :
    Escapes (readSetting own name default read) ↔
      ∃ value, own.field? name = some value ∧ Escapes (read value) := by
  unfold readSetting
  cases own.field? name with
  | none => simp [not_escapes_ok]
  | some value => simp

end

/-! ## Values that cannot be read -/

namespace Tree

/-- Values that are neither numbers nor texts. -/
inductive IsWrongKind : Tree → Prop
  | null : IsWrongKind .null
  | list (items : List Tree) : IsWrongKind (.list items)
  | table (entries : Table) : IsWrongKind (.table entries)

/-- Values that are read as fractions with a fault that is not reported. -/
inductive EscapesAsFraction : Tree → Prop
  | wrongKind {t : Tree} (h : t.IsWrongKind) : EscapesAsFraction t
  /-- the integer has no finite fraction next to it -/
  | beyond {i : Int} (h : 2 ^ 1024 ≤ i.natAbs + 2 ^ 970) : EscapesAsFraction (.int i)

/-- Values that are read as integers with a fault that is not reported. -/
inductive EscapesAsInteger : Tree → Prop
  | wrongKind {t : Tree} (h : t.IsWrongKind) : EscapesAsInteger t
  | infinite (negative : Bool) : EscapesAsInteger (.number (.fraction (.infinite negative)))

end Tree

theorem fractionSetting_int (i : Int) :
    fractionSetting (.int i) =
      if (Binary64.ofInt i).isFinite then .ok (.fraction (.ofInt i)) else .error .beyondFractions :=
  rfl

/-- A text is read as a fraction, or the fault is reported. -/
theorem not_escapes_fraction_text (s : String) : ¬ Escapes (fractionSetting (.text s)) := by
  cases hread : readFraction? s with
  | some x =>
      simp only [fractionSetting, hread]
      exact not_escapes_ok _
  | none =>
      simp only [fractionSetting, hread, escapes_error_iff]
      exact Bool.noConfusion

/-- A text is read as an integer, or the fault is reported. -/
theorem not_escapes_integer_text (s : String) : ¬ Escapes (integerSetting (.text s)) := by
  cases hexcess : excessDigits? s with
  | some count =>
      simp only [integerSetting, hexcess, escapes_error_iff]
      exact Bool.noConfusion
  | none =>
      cases hread : readInt? s with
      | some i =>
          simp only [integerSetting, hexcess, hread]
          exact not_escapes_ok _
      | none =>
          simp only [integerSetting, hexcess, hread, escapes_error_iff]
          exact Bool.noConfusion

theorem fractionSetting_escapes_iff {t : Tree} : Escapes (fractionSetting t) ↔ t.EscapesAsFraction := by
  cases t with
  | list items => exact iff_of_true ⟨_, rfl, rfl⟩ (.wrongKind (.list items))
  | table entries => exact iff_of_true ⟨_, rfl, rfl⟩ (.wrongKind (.table entries))
  | leaf s =>
      cases s with
      | null => exact iff_of_true ⟨_, rfl, rfl⟩ (.wrongKind .null)
      | bool b =>
          have hread : ∃ x, fractionSetting (.bool b) = .ok x := by
            cases b with
            | false => exact ⟨.fraction (.ofInt 0), by decide +kernel⟩
            | true => exact ⟨.fraction (.ofInt 1), by decide +kernel⟩
          obtain ⟨x, hx⟩ := hread
          rw [hx]
          refine iff_of_false (not_escapes_ok x) ?_
          rintro ⟨⟨⟩⟩
      | text s => exact iff_of_false (not_escapes_fraction_text s) (by rintro ⟨⟨⟩⟩)
      | number n =>
          cases n with
          | fraction x => exact iff_of_false (not_escapes_ok _) (by rintro ⟨⟨⟩⟩)
          | int i =>
              rw [fractionSetting_int]
              have hrange := isFinite_ofInt_iff i
              split
              · rename_i hfinite
                refine iff_of_false (not_escapes_ok _) ?_
                rintro (⟨⟨⟩⟩ | hbeyond)
                exact Nat.not_le.mpr (hrange.mp hfinite) hbeyond
              · rename_i hinfinite
                refine iff_of_true (escapes_error_iff.mpr rfl) (.beyond ?_)
                exact Nat.not_lt.mp fun hbelow => hinfinite (hrange.mpr hbelow)

/-- A fault of a fraction that is reported is that of a text. -/
theorem text_of_fractionSetting {t : Tree} {fault : SettingFault} (h : fractionSetting t = .error fault)
    (reported : fault.isReported = true) : ∃ s, t = .text s ∧ readFraction? s = none := by
  unfold fractionSetting at h
  split at h
  · rename_i s
    split at h
    · cases h
    · rename_i hread
      exact ⟨s, rfl, hread⟩
  · split at h
    · split at h <;> cases h
      cases reported
    · cases h
    · cases h
      cases reported

theorem integerSetting_escapes_iff {t : Tree} : Escapes (integerSetting t) ↔ t.EscapesAsInteger := by
  cases t with
  | list items => exact iff_of_true ⟨_, rfl, rfl⟩ (.wrongKind (.list items))
  | table entries => exact iff_of_true ⟨_, rfl, rfl⟩ (.wrongKind (.table entries))
  | leaf s =>
      cases s with
      | null => exact iff_of_true ⟨_, rfl, rfl⟩ (.wrongKind .null)
      | bool b => exact iff_of_false (not_escapes_ok _) (by rintro ⟨⟨⟩⟩)
      | text s => exact iff_of_false (not_escapes_integer_text s) (by rintro ⟨⟨⟩⟩)
      | number n =>
          cases n with
          | int i => exact iff_of_false (not_escapes_ok _) (by rintro ⟨⟨⟩⟩)
          | fraction x =>
              cases x with
              | nan =>
                  refine iff_of_false ?_ (by rintro ⟨⟨⟩⟩)
                  exact fun h => Bool.noConfusion (escapes_error_iff.mp h)
              | infinite negative => exact iff_of_true ⟨_, rfl, rfl⟩ (.infinite negative)
              | finite negative size => exact iff_of_false (not_escapes_ok _) (by rintro ⟨⟨⟩⟩)

/-! ## Settings of detection -/

/-- Settings of detection with a fault that is not reported: that of the least confidence, or that of the
number of flows unless a fault of the least confidence is reported first. -/
inductive Table.EscapesReading (own : Table) : Prop
  | confidence {value : Tree} (h : own.field? "min_confidence" = some value)
      (escapes : value.EscapesAsFraction)
  | flows {value : Tree}
      (readable : ∀ s, own.field? "min_confidence" = some (.text s) → readFraction? s ≠ none)
      (h : own.field? "max_flows" = some value) (escapes : value.EscapesAsInteger)

theorem DetectorOptions.ofSettings_escapes_iff {settings : Table} :
    Escapes (DetectorOptions.ofSettings settings) ↔ (section? settings "detector").EscapesReading := by
  unfold DetectorOptions.ofSettings
  generalize section? settings "detector" = own
  simp only [escapes_bind_iff, readSetting_escapes_iff, fractionSetting_escapes_iff,
    integerSetting_escapes_iff]
  constructor
  · rintro (⟨value, h, escapes⟩ | ⟨least, hleast, ⟨value, h, escapes⟩ | ⟨limit, -, hlimit⟩⟩)
    · exact .confidence h escapes
    · refine .flows ?_ h escapes
      intro s hs hread
      unfold readSetting fractionSetting at hleast
      simp only [hs, hread] at hleast
      cases hleast
    · exact absurd hlimit (not_escapes_ok _)
  · rintro (⟨h, escapes⟩ | ⟨readable, h, escapes⟩)
    · exact Or.inl ⟨_, h, escapes⟩
    · cases hleast : readSetting own "min_confidence" ({} : DetectorOptions).minConfidence fractionSetting with
      | ok least => exact Or.inr ⟨least, rfl, Or.inl ⟨_, h, escapes⟩⟩
      | error fault =>
          unfold readSetting at hleast
          split at hleast
          · rename_i value hvalue
            cases hreported : fault.isReported with
            | false => exact Or.inl ⟨value, hvalue, fractionSetting_escapes_iff.mp ⟨fault, hleast, hreported⟩⟩
            | true =>
                obtain ⟨s, rfl, hread⟩ := text_of_fractionSetting hleast hreported
                exact absurd hread (readable s hvalue)
          · cases hleast

/-! ## Settings of linking -/

/-- A value that scores can be compared with. -/
def Tree.IsThreshold (t : Tree) : Prop := ∃ least, t.number? = some least

/-- A value that a list can be cut at: an integer, or nothing for no cut. -/
def Tree.IsLimit (t : Tree) : Prop := t = .null ∨ ∃ limit, t.number? = some (.int limit)

namespace LinkerOptions

theorem threshold_succeeds_iff {o : LinkerOptions} :
    (∃ n, o.threshold = .ok n) ↔ o.minConfidence.IsThreshold := by
  unfold threshold Tree.IsThreshold
  cases o.minConfidence.number? with
  | none => simp
  | some least => simp

theorem keepBest_succeeds_iff {α : Type} {o : LinkerOptions} (xs : List α) :
    (∃ kept, o.keepBest xs = .ok kept) ↔ o.maxEdges.IsLimit := by
  constructor
  · rintro ⟨kept, h⟩
    unfold keepBest at h
    unfold Tree.IsLimit
    split at h
    · rename_i hmax
      exact Or.inl hmax
    · rename_i hmax
      exact Or.inr ⟨_, congrArg Tree.number? hmax⟩
    · rename_i hmax
      exact Or.inr ⟨_, congrArg Tree.number? hmax⟩
    · cases h
  · rintro (hnull | ⟨limit, hlimit⟩)
    · unfold keepBest
      rw [hnull]
      exact ⟨xs, rfl⟩
    · exact ⟨_, keepBest_eq hlimit xs⟩

/-- A property of the default holds of what is set if it holds of the setting, when there is one. -/
theorem holds_getD_iff {P : Tree → Prop} {default : Tree} (h : P default) (setting : Option Tree) :
    P (setting.getD default) ↔ ∀ value ∈ setting, P value := by
  cases setting with
  | none => exact iff_of_true h nofun
  | some value => simp

theorem isThreshold_ofSettings {settings : Table} : (ofSettings settings).minConfidence.IsThreshold ↔
    ∀ value ∈ (section? settings "linker").field? "min_confidence", value.IsThreshold :=
  holds_getD_iff ⟨_, rfl⟩ _

theorem isLimit_ofSettings {settings : Table} : (ofSettings settings).maxEdges.IsLimit ↔
    ∀ value ∈ (section? settings "linker").field? "max_edges_per_operation", value.IsLimit :=
  holds_getD_iff (Or.inr ⟨_, rfl⟩) _

end LinkerOptions

/-- Some node of a list is scored for some operation of a list. -/
def Meets (scorer : Scorer) (options : LinkerOptions) (job : JobNode) (operations : List Operation)
    (nodes : List InfraNode) : Prop :=
  ∃ o ∈ operations, ∃ n ∈ nodes, ∃ score, scorer job o n options = .ok (some score)

/-- Some node of a tool is scored for some operation of a job with the tool. -/
def Infrastructure.Meets (infra : Infrastructure) (options : LinkerOptions) (job : JobNode) : Prop :=
  DeployTrace.Meets terraformScore options job (operationsOf .terraform job.operations)
      (infra.terraform.filter (·.kind.isTerraform)) ∨
    DeployTrace.Meets helmScore options job (operationsOf .helm job.operations)
      (infra.helm.filter (·.kind.isHelm))

/-- A job has an operation with one of the tools. -/
def JobNode.RunsTool (job : JobNode) : Prop :=
  ∃ o ∈ job.operations, o.kind = .terraform ∨ o.kind = .helm

section

variable {digest : Digest} {scorer : Scorer} {options : LinkerOptions} {nodes : List InfraNode}
  {job : JobNode}

/-- A node that can be scored is matched, unless its score has nothing to be compared with. -/
theorem matchOf_succeeds_iff {o : Operation} {n : InfraNode}
    (scored : ∃ best, scorer job o n options = .ok best) :
    (∃ m, matchOf scorer options job o n = .ok m) ↔
      ((∃ score, scorer job o n options = .ok (some score)) → options.minConfidence.IsThreshold) := by
  obtain ⟨best, hbest⟩ := scored
  rw [hbest]
  cases best with
  | none =>
      have hnone : matchOf scorer options job o n = .ok none := by
        unfold matchOf
        rw [hbest]
        rfl
      exact iff_of_true ⟨none, hnone⟩ nofun
  | some score =>
      have hcompared : (∃ m, matchOf scorer options job o n = .ok m) ↔ options.minConfidence.IsThreshold := by
        rw [← LinkerOptions.threshold_succeeds_iff]
        unfold matchOf
        rw [hbest]
        show (∃ m, (options.threshold >>= _) = Except.ok m) ↔ _
        refine bind_succeeds_iff_of_total fun least => ?_
        split
        · exact ⟨none, rfl⟩
        · exact ⟨some _, rfl⟩
      rw [hcompared]
      exact ⟨fun has _ => has, fun has => has ⟨score, rfl⟩⟩

/-- The matches of an operation are found unless a score has nothing to be compared with, and kept unless
there is no limit to cut them at. -/
theorem matchesOf_succeeds_iff {o : Operation}
    (scored : ∀ n ∈ nodes, ∃ best, scorer job o n options = .ok best) :
    (∃ found, matchesOf scorer options nodes job o = .ok found) ↔
      ((∃ n ∈ nodes, ∃ score, scorer job o n options = .ok (some score)) → options.minConfidence.IsThreshold) ∧
        options.maxEdges.IsLimit := by
  have hfound : (∃ found, nodes.mapM (matchOf scorer options job o) = .ok found) ↔
      ((∃ n ∈ nodes, ∃ score, scorer job o n options = .ok (some score)) → options.minConfidence.IsThreshold) := by
    rw [mapM_succeeds_iff]
    constructor
    · rintro each ⟨n, hn, score⟩
      exact (matchOf_succeeds_iff (scored n hn)).mp (each n hn) score
    · intro has n hn
      exact (matchOf_succeeds_iff (scored n hn)).mpr fun score => has ⟨n, hn, score⟩
  unfold matchesOf
  simp only [bind_succeeds_iff, LinkerOptions.keepBest_succeeds_iff, ← hfound]
  exact exists_and_right

theorem linkOperations_succeeds_iff {operations : List Operation}
    (scored : ∀ o, ∀ n ∈ nodes, ∃ best, scorer job o n options = .ok best) :
    (∃ links, linkOperations digest scorer options nodes job operations = .ok links) ↔
      (Meets scorer options job operations nodes → options.minConfidence.IsThreshold) ∧
        (operations ≠ [] → options.maxEdges.IsLimit) := by
  have hfound : (∃ links, linkOperations digest scorer options nodes job operations = .ok links) ↔
      ∀ o ∈ operations, ∃ found, matchesOf scorer options nodes job o = .ok found := by
    rw [← mapM_succeeds_iff]
    exact bind_succeeds_iff_of_total fun found => ⟨_, rfl⟩
  rw [hfound]
  constructor
  · intro each
    constructor
    · rintro ⟨o, ho, met⟩
      exact ((matchesOf_succeeds_iff (scored o)).mp (each o ho)).1 met
    · intro some
      obtain ⟨o, ho⟩ := List.exists_mem_of_ne_nil _ some
      exact ((matchesOf_succeeds_iff (scored o)).mp (each o ho)).2
  · rintro ⟨threshold, limit⟩ o ho
    refine (matchesOf_succeeds_iff (scored o)).mpr ⟨?_, limit (List.ne_nil_of_mem ho)⟩
    exact fun met => threshold ⟨o, ho, met⟩

theorem operationsOf_ne_nil {kind : OperationKind} {operations : List Operation} :
    operationsOf kind operations ≠ [] ↔ ∃ o ∈ operations, o.kind = kind := by
  unfold operationsOf
  simp

end

section

variable {digest : Digest} {options : LinkerOptions} {infra : Infrastructure}

/-- The nodes of an infrastructure have only texts as facts. -/
def Infrastructure.HasTextFacts (infra : Infrastructure) : Prop :=
  ∀ n ∈ infra.terraform ++ infra.helm, n.HasTextFacts

theorem linkTerraform_succeeds_iff {job : JobNode} (facts : ∀ n ∈ infra.terraform, n.HasTextFacts) :
    (∃ links, linkTerraform digest options infra.terraform job = .ok links) ↔
      (Meets terraformScore options job (operationsOf .terraform job.operations)
        (infra.terraform.filter (·.kind.isTerraform)) → options.minConfidence.IsThreshold) ∧
      ((∃ o ∈ job.operations, o.kind = .terraform) → options.maxEdges.IsLimit) := by
  rw [← operationsOf_ne_nil]
  refine linkOperations_succeeds_iff fun o n hn => ?_
  obtain ⟨best, hbest, -⟩ := terraformScore_onScale (facts n (List.mem_of_mem_filter hn)) job o options
  exact ⟨best, hbest⟩

theorem linkHelm_succeeds_iff {job : JobNode} (facts : ∀ n ∈ infra.helm, n.HasTextFacts) :
    (∃ links, linkHelm digest options infra.helm job = .ok links) ↔
      (Meets helmScore options job (operationsOf .helm job.operations)
        (infra.helm.filter (·.kind.isHelm)) → options.minConfidence.IsThreshold) ∧
      ((∃ o ∈ job.operations, o.kind = .helm) → options.maxEdges.IsLimit) := by
  rw [← operationsOf_ne_nil]
  refine linkOperations_succeeds_iff fun o n hn => ?_
  obtain ⟨best, hbest, -⟩ := helmScore_onScale (facts n (List.mem_of_mem_filter hn)) job o options
  exact ⟨best, hbest⟩

/-- The links of a job are found when those of both tools are. -/
theorem linkJob_succeeds_iff {job : JobNode} (facts : infra.HasTextFacts) :
    (∃ links, linkJob digest options infra job = .ok links) ↔
      (infra.Meets options job → options.minConfidence.IsThreshold) ∧ (job.RunsTool → options.maxEdges.IsLimit) := by
  have hboth : (∃ links, linkJob digest options infra job = .ok links) ↔
      (∃ links, linkTerraform digest options infra.terraform job = .ok links) ∧
        ∃ links, linkHelm digest options infra.helm job = .ok links := by
    constructor
    · rintro ⟨links, h⟩
      obtain ⟨terraform, hterraform, h⟩ := exists_of_bind_eq_ok h
      obtain ⟨helm, hhelm, -⟩ := exists_of_bind_eq_ok h
      exact ⟨⟨terraform, hterraform⟩, helm, hhelm⟩
    · rintro ⟨⟨terraform, hterraform⟩, helm, hhelm⟩
      unfold linkJob
      rw [hterraform]
      show ∃ links, (linkHelm digest options infra.helm job >>= _) = Except.ok links
      rw [hhelm]
      exact ⟨_, rfl⟩
  rw [hboth, linkTerraform_succeeds_iff fun n hn => facts n (List.mem_append_left _ hn),
    linkHelm_succeeds_iff fun n hn => facts n (List.mem_append_right _ hn)]
  unfold Infrastructure.Meets JobNode.RunsTool
  simp only [and_or_left, exists_or, or_imp]
  exact and_and_and_comm

/-- The edges of some jobs are found unless a score has nothing to be compared with, or there is no limit to cut
the matches of an operation at. -/
theorem linkJobs_succeeds_iff {jobs : List JobNode} (facts : infra.HasTextFacts) :
    (∃ edges, linkJobs digest options infra jobs = .ok edges) ↔
      ((∃ job ∈ jobs, infra.Meets options job) → options.minConfidence.IsThreshold) ∧
        ((∃ job ∈ jobs, job.RunsTool) → options.maxEdges.IsLimit) := by
  have hjobs : (∃ edges, linkJobs digest options infra jobs = .ok edges) ↔
      ∀ job ∈ jobs, ∃ links, linkJob digest options infra job = .ok links := by
    rw [← mapM_succeeds_iff]
    exact bind_succeeds_iff_of_total fun found => ⟨_, rfl⟩
  rw [hjobs]
  constructor
  · intro each
    constructor
    · rintro ⟨job, hjob, met⟩
      exact ((linkJob_succeeds_iff facts).mp (each job hjob)).1 met
    · rintro ⟨job, hjob, runs⟩
      exact ((linkJob_succeeds_iff facts).mp (each job hjob)).2 runs
  · rintro ⟨threshold, limit⟩ job hjob
    exact (linkJob_succeeds_iff facts).mpr
      ⟨fun met => threshold ⟨job, hjob, met⟩, fun runs => limit ⟨job, hjob, runs⟩⟩

end

/-! ## All settings -/

section

variable {α : Type}

theorem reported_or_read_iff {reading : Except SettingFault α} :
    ((∃ fault, reading = .error fault ∧ fault.isReported = true) ∨ ∃ a, reading = .ok a) ↔
      ¬ Escapes reading := by
  cases reading with
  | ok a => exact iff_of_true (Or.inr ⟨a, rfl⟩) (not_escapes_ok a)
  | error fault =>
      rw [escapes_error_iff]
      simp

end

/-- With any options, every workflow that is a table has an answer. -/
theorem Session.exists_answer (digest : Digest) (options : DetectorOptions) (calls : List SessionCall)
    (workflow : Table) (file : String) :
    ∃ flows, ((Session.start digest options).after calls).answer (.table workflow) file = .ok flows :=
  ((start_isNew digest options).after_remembers calls).exists_answer workflow file

/-- Settings of detection are refused with a report, or they can be read and detection then answers for every
workflow, unless they hold one of the values that are not reported.  Settings of linking are never refused.
With them linking completes unless a node has a score where the least confidence is no number, or a job has an
operation of a tool where the limit is no integer. -/
theorem settings_reported_or_work_iff (digest : Digest) (settings : Table) {infra : Infrastructure}
    (facts : infra.HasTextFacts) (jobs : List JobNode) :
    (((∃ fault, DetectorOptions.ofSettings settings = .error fault ∧ fault.isReported = true) ∨
        ∃ options, DetectorOptions.ofSettings settings = .ok options ∧
          ∀ (calls : List SessionCall) (workflow : Table) (file : String), ∃ flows,
            ((Session.start digest options).after calls).answer (.table workflow) file = .ok flows) ↔
      ¬ (section? settings "detector").EscapesReading) ∧
    ((∃ edges, linkJobs digest (.ofSettings settings) infra jobs = .ok edges) ↔
      ((∃ job ∈ jobs, infra.Meets (.ofSettings settings) job) →
        ∀ value ∈ (section? settings "linker").field? "min_confidence", value.IsThreshold) ∧
      ((∃ job ∈ jobs, job.RunsTool) →
        ∀ value ∈ (section? settings "linker").field? "max_edges_per_operation", value.IsLimit)) := by
  constructor
  · have hanswers : ∀ options : DetectorOptions, ∀ (calls : List SessionCall) (workflow : Table) (file : String),
        ∃ flows, ((Session.start digest options).after calls).answer (.table workflow) file = .ok flows :=
      Session.exists_answer digest
    rw [← DetectorOptions.ofSettings_escapes_iff, ← reported_or_read_iff]
    simp only [hanswers, implies_true, and_true]
  · rw [← LinkerOptions.isThreshold_ofSettings, ← LinkerOptions.isLimit_ofSettings]
    exact linkJobs_succeeds_iff facts

/-! ### Settings that nobody reports -/

/-- Settings with a list and a word where numbers are expected. -/
def misfits : Table :=
  [(.text "detector", .table [(.text "min_confidence", .list [])]),
    (.text "linker", .table [(.text "min_confidence", .text "high")])]

/-- An infrastructure of one output. -/
def networkInfra : Infrastructure where
  terraform := [networkOutput "vpc"]
  helm := []

theorem misfits_escape : (section? misfits "detector").EscapesReading :=
  .confidence rfl (.wrongKind (.list []))

theorem misfits_not_isThreshold :
    ¬ ∀ value ∈ (section? misfits "linker").field? "min_confidence", value.IsThreshold := by
  intro h
  obtain ⟨least, hleast⟩ := h (.text "high") rfl
  cases hleast

theorem hasTextFacts_networkInfra : networkInfra.HasTextFacts := by
  intro n hn entry hentry
  cases List.mem_singleton.mp hn
  cases List.mem_singleton.mp hentry
  exact ⟨_, rfl⟩

theorem networkInfra_meets : networkInfra.Meets (.ofSettings misfits) networkJob := by
  refine Or.inl ⟨_, List.mem_cons_self, networkOutput "vpc", List.mem_cons_self, ⟨100, .workingDir⟩, ?_⟩
  decide +kernel

/-- A list as the least confidence is refused without a report, and a word as the one of links is a fault as soon
as a node has a score. -/
theorem settings_reported_or_work_iff_misfits :
    networkInfra.HasTextFacts ∧
    ¬ ((∃ fault, DetectorOptions.ofSettings misfits = .error fault ∧ fault.isReported = true) ∨
        ∃ options, DetectorOptions.ofSettings misfits = .ok options ∧
          ∀ (calls : List SessionCall) (workflow : Table) (file : String), ∃ flows,
            ((Session.start plainDigest options).after calls).answer (.table workflow) file = .ok flows) ∧
    ¬ ∃ edges, linkJobs plainDigest (.ofSettings misfits) networkInfra [networkJob] = .ok edges := by
  obtain ⟨reading, linking⟩ :=
    settings_reported_or_work_iff plainDigest misfits hasTextFacts_networkInfra [networkJob]
  refine ⟨hasTextFacts_networkInfra, fun h => reading.mp h misfits_escape, fun h => ?_⟩
  exact misfits_not_isThreshold ((linking.mp h).1 ⟨networkJob, List.mem_cons_self, networkInfra_meets⟩)

/-- Neither are all settings of detection reported or read, nor does linking complete with all settings. -/
theorem misfits_not_reported :
    (¬ ∀ settings : Table,
      (∃ fault, DetectorOptions.ofSettings settings = .error fault ∧ fault.isReported = true) ∨
        ∃ options, DetectorOptions.ofSettings settings = .ok options ∧
          ∀ (calls : List SessionCall) (workflow : Table) (file : String), ∃ flows,
            ((Session.start plainDigest options).after calls).answer (.table workflow) file = .ok flows) ∧
    ¬ ∀ (settings : Table) (infra : Infrastructure) (jobs : List JobNode), infra.HasTextFacts →
      ∃ edges, linkJobs plainDigest (.ofSettings settings) infra jobs = .ok edges := by
  constructor
  · intro all
    refine reported_or_read_iff.mp ?_ (DetectorOptions.ofSettings_escapes_iff.mpr misfits_escape)
    exact (all misfits).imp_right fun ⟨options, h, _⟩ => ⟨options, h⟩
  · intro all
    have complete := all misfits networkInfra [networkJob] hasTextFacts_networkInfra
    have threshold := (linkJobs_succeeds_iff hasTextFacts_networkInfra).mp complete
    have hthreshold := threshold.1 ⟨networkJob, List.mem_cons_self, networkInfra_meets⟩
    exact misfits_not_isThreshold (LinkerOptions.isThreshold_ofSettings.mp hthreshold)

end DeployTrace
