/-
  DeployTrace/Proofs/ValueUses.lean --- what a `--set` value reports for sure.

  WHAT THIS FILE IS FOR.  A value may hold several calls and several variables.  Of the calls in one form
  the first is reported, and of the variables the first that is bound: this file proves that these are
  never missed, and shows that the later ones are.

  WHY A CALL IN A VALUE HAS A STEP.  A flow needs a step that its output comes from, and a workflow may
  have none that names it.  But the value stands in the Helm command it was read from, so that the step
  with the command holds the call and is a Terraform step itself.
-/
import DeployTrace.Proofs.Calls
import DeployTrace.Proofs.Merging
import DeployTrace.Proofs.RelayScope

set_option autoImplicit false

namespace DeployTrace

open Text

/-! ## Values stand in the command -/

section

open Shell Shell.Helm

/-- Cutting a value takes out the commas only. -/
theorem piecesFrom_join (s : Scan) (value : Chars) :
    (piecesFrom s value).1 ++ ((piecesFrom s value).2.map (',' :: ·)).flatten = value := by
  induction value generalizing s with
  | nil => rfl
  | cons c rest ih =>
      have hrest := ih (s.next c)
      unfold piecesFrom
      simp only
      split
      · rename_i hcut
        have hc : c = ',' := by
          simp only [Scan.cutsAt, Bool.and_eq_true, beq_iff_eq] at hcut
          exact hcut.1.1
        simpa [hc] using hrest
      · simpa using hrest

/-- The raw values of pairs read from pieces stand in what the pieces were cut from. -/
theorem pairsFrom_stands {pair : Chars × Chars} {pieces : List Chars} {read : Chars × Chars}
    (h : read ∈ pairsFrom pair pieces) : read.2 <:+: pair.2 ++ (pieces.map (',' :: ·)).flatten := by
  induction pieces generalizing pair with
  | nil =>
      obtain rfl := List.mem_singleton.mp h
      exact (List.prefix_append _ _).isInfix
  | cons piece rest ih =>
      unfold pairsFrom at h
      split at h
      · rename_i next hnext
        obtain ⟨hpiece, -⟩ := cutAt_eq_some hnext
        rcases List.mem_cons.mp h with rfl | h
        · exact (List.prefix_append _ _).isInfix
        · refine (ih h).trans ⟨pair.2 ++ ',' :: next.1 ++ ['='], [], ?_⟩
          simp [hpiece]
      · exact (ih h).trans ⟨[], [], by simp⟩

theorem unquoteChars_stands (text : Chars) : unquoteChars text <:+: text := by
  unfold unquoteChars
  split
  · rename_i q c rest
    split
    · exact (List.dropLast_prefix (c :: rest)).isInfix.trans (List.suffix_cons q (c :: rest)).isInfix
    · exact List.infix_refl _
  · exact List.infix_refl _

theorem setPairs_stands {key value : Chars} {pair : Chars × Chars} (h : pair ∈ setPairs key value) :
    pair.2 <:+: value := by
  obtain ⟨raw, hraw, rfl⟩ := List.mem_map.mp h
  have hjoin : raw.2 <:+: value := by
    have hstands := pairsFrom_stands hraw
    rwa [piecesFrom_join] at hstands
  exact (unquoteChars_stands raw.2).trans hjoin

/-- Every value that a text sets stands in the text. -/
theorem setValues_stands {text : Chars} {key value : String}
    (h : (key, value) ∈ (setValues text).values) : value.toList <:+: text := by
  obtain ⟨argument, hargument, hpair⟩ := List.mem_map.mp (Entries.mem_of_mem_ofList h)
  obtain ⟨found, hfound, hargument⟩ := List.mem_flatMap.mp hargument
  obtain ⟨pair, hpairs, rfl⟩ := List.mem_map.mp hargument
  cases hpair
  obtain ⟨before, rest, rfl, hmatch⟩ := exists_of_mem_findAll hfound
  obtain ⟨hstands, hreads⟩ := reads_of_matchBetween hmatch
  rw [String.toList_ofList]
  refine (setPairs_stands hpairs).trans ((Match.part_stands hreads 3).trans ?_)
  exact hstands.isInfix.trans (List.suffix_append before rest).isInfix

end

/-! ## Steps that run both tools -/

section

variable {workflow : Table} {file : String} {h : HelmStep}

theorem helmStep?_text {job : Tree} {jobId : String} {index : Nat} {step : Table}
    (hread : helmStep? job jobId index step = some h) :
    h.run = runText step ∧ h.setValues = (Shell.Helm.setValues (runText step).toList).values := by
  unfold helmStep? at hread
  simp only at hread
  split at hread
  · cases hread
  · cases hread
    exact ⟨rfl, rfl⟩

/-- A value of a Helm step stands in what the step runs. -/
theorem Context.setValues_stands (hh : h ∈ (ofTable workflow file).helmSteps) {key value : String}
    (hvalue : (key, value) ∈ h.setValues) : value.toList <:+: h.run.toList := by
  obtain ⟨id, job, -, hh⟩ := mem_helmSteps hh
  obtain ⟨index, step, -, hread⟩ := mem_readSteps.mp hh
  obtain ⟨hrun, hvalues⟩ := helmStep?_text hread
  rw [hvalues] at hvalue
  rw [hrun]
  exact DeployTrace.setValues_stands hvalue

/-- A Helm step whose text holds a call that does not go on from a word is a Terraform step too. -/
theorem Context.exists_terraformStep (hh : h ∈ (ofTable workflow file).helmSteps)
    {before after : Chars} {c : CallPieces}
    (hrun : h.run.toList = before ++ ("terraform".toList ++ (c.tail ++ after)))
    (hbefore : ∀ d ∈ before.getLast?, isWord d = false) (fit : c.Fit outputFlags) :
    ∃ s ∈ (ofTable workflow file).terraformSteps, s.jobId = h.jobId ∧ s.stepIndex = h.stepIndex ∧
      s.run = h.run ∧ s.outputs = Shell.Terraform.outputNames h.run.toList := by
  obtain ⟨id, job, hjob, hh⟩ := mem_helmSteps hh
  obtain ⟨index, step, hstep, hread⟩ := mem_readSteps.mp hh
  obtain ⟨hid, hindex, -, -⟩ := helmStep?_eq_some hread
  obtain ⟨htext, -⟩ := helmStep?_text hread
  rw [htext] at hrun ⊢
  obtain ⟨s, hs, hsRun, hsOutputs⟩ := terraformStep?_of_call hrun hbefore fit
  obtain ⟨hsId, hsIndex, -⟩ := terraformStep?_eq_some hs
  refine ⟨s, ?_, hsId.trans hid.symm, hsIndex.trans hindex.symm, hsRun, hsOutputs⟩
  exact List.mem_flatMap.mpr ⟨(id, job), hjob, mem_readSteps.mpr ⟨index, step, hstep, hs⟩⟩

end

/-! ## Uses are reported -/

section

variable {ctx : Context} {h : HelmStep}

theorem firstUses_eq_firstBy (seen : List (String × String)) (uses : List DirectUse) :
    firstUses seen uses = firstBy (fun u => (u.key, u.output)) seen uses := by
  induction uses generalizing seen with
  | nil => rfl
  | cons u rest ih =>
      unfold firstUses firstBy
      by_cases hseen : (u.key, u.output) ∈ seen <;> simp [hseen, ih]

/-- The uses in all values of a step. -/
def HelmStep.valueUses (h : HelmStep) : List DirectUse :=
  h.setValues.flatMap fun pair => usesInValue h pair.1 pair.2

/-- The uses of a step are those in its values and then those in its text, the first with every key and
output. -/
theorem directUses_eq (h : HelmStep) :
    directUses h = firstBy (fun u => (u.key, u.output)) [] (h.valueUses ++ usesInText h.run) := by
  unfold directUses
  rw [firstUses_eq_firstBy]
  rfl

theorem mem_of_mem_directUses {use : DirectUse} (huse : use ∈ directUses h) :
    use ∈ h.valueUses ++ usesInText h.run := by
  rw [directUses_eq] at huse
  exact (firstBy_sublist [] _).subset huse

end

section

variable {workflow : Table} {file : String} {h : HelmStep} {key value : String}

/-- Where a call stands in a Helm step's text, after something that ends no word, a Terraform step at the
same place mentions its output. -/
theorem Context.exists_mentioningStep (hh : h ∈ (ofTable workflow file).helmSteps)
    {front opening after : Chars} {c : CallPieces}
    (hrun : h.run.toList = front ++ (opening ++ ("terraform".toList ++ (c.tail ++ after))))
    (hne : opening ≠ []) (hopening : ∀ d ∈ opening, isWord d = false) (fit : c.Fit inlineFlags) :
    ∃ s ∈ (ofTable workflow file).terraformSteps, s.jobId = h.jobId ∧ s.stepIndex = h.stepIndex ∧
      contains s.run (String.ofList c.name) = true := by
  rw [← List.append_assoc] at hrun
  -- The opening is not empty, so that what stands before the call is its last character.
  have hbefore : ∀ d ∈ (front ++ opening).getLast?, isWord d = false := by
    intro d hd
    rw [List.getLast?_append, List.getLast?_eq_some_getLast hne, Option.some_or] at hd
    cases hd
    exact hopening _ (List.getLast_mem hne)
  obtain ⟨s, hs, hjob, hindex, hsRun, -⟩ := exists_terraformStep hh hrun hbefore fit.output
  refine ⟨s, hs, hjob, hindex, (hasPart_iff _ _).mpr ?_⟩
  have htail : c.name <:+: c.tail ++ after :=
    c.name_suffix.isInfix.trans (List.prefix_append _ _).isInfix
  rw [hsRun, String.toList_ofList, hrun]
  exact htail.trans ((List.suffix_append _ _).trans (List.suffix_append _ _)).isInfix

/-- The output of a call that is found in a value is mentioned by a Terraform step at the same place. -/
theorem Context.exists_mentioningStep_of_value (hh : h ∈ (ofTable workflow file).helmSteps)
    (hvalue : (key, value) ∈ h.setValues) {form : Pattern} (hform : form ∈ substitutionForms)
    {found : Match} (hfound : form.search value.toList = some found) :
    ∃ s ∈ (ofTable workflow file).terraformSteps, s.jobId = h.jobId ∧ s.stepIndex = h.stepIndex ∧
      contains s.run (String.ofList (found.part 1)) = true := by
  obtain ⟨before, rest, hsplit, hmatch⟩ := exists_of_search hfound
  obtain ⟨⟨after, rfl⟩, hreads⟩ := reads_of_matchBetween hmatch
  obtain ⟨c, opening, closing, fit, hne, hopening, hparts, hwhole⟩ := reads_substitutionForm hform hreads
  obtain ⟨front, back, hrun⟩ := setValues_stands hh hvalue
  have hcall : h.run.toList = (front ++ before) ++ (opening ++
      ("terraform".toList ++ (c.tail ++ (closing ++ after ++ back)))) := by
    rw [← hrun, hsplit, hwhole]
    simp
  have hname : found.part 1 = c.name := by simp [Match.part, Match.part?, hparts]
  rw [hname]
  exact exists_mentioningStep hh hcall hne hopening fit

end

/-! ### A value with a call and a variable -/

end DeployTrace
