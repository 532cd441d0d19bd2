/-
  DeployTrace/Proofs/OwnSteps.lean --- direct flows stay in their job.

  WHAT THIS FILE IS FOR.  A Helm step whose value holds `$(terraform output x)` runs Terraform itself, so
  that its own job is where the output comes from.  The detector looks for the steps that name `x`, and
  prefers those of the Helm step's job; so what has to hold is that the Helm step is known as one of them.

  WHAT HOLDS.  It is, unless the text of the step has a `-state=` flag whose argument ends in a call.  There
  the output in the argument may go unnamed (`CrossedCalls`), and if another job names it, the flow starts
  in that job.
-/
import DeployTrace.Proofs.CrossedCalls
import DeployTrace.Proofs.DirectIdiom
import DeployTrace.Proofs.ValueUses

set_option autoImplicit false

namespace DeployTrace

open Text Pattern Shell.Terraform

/-! ## Flows stay in their job -/

section

variable {workflow : Table} {file : String} {h : HelmStep}

/-- Where a substitution stands in a Helm step's text, a Terraform step at the same place names its output,
unless the text has a `-state=` flag from a call. -/
theorem Context.exists_namingStep (hh : h ∈ (ofTable workflow file).helmSteps) {form : Pattern}
    (hform : form ∈ substitutionForms) {text front after : Chars} {parts : List (Nat × Chars)}
    (hreads : form.Reads text parts) (hrun : h.run.toList = front ++ (text ++ after))
    (hplain : stateFromCall.occursIn h.run.toList = false) :
    ∃ s ∈ (ofTable workflow file).terraformSteps, s.jobId = h.jobId ∧ s.stepIndex = h.stepIndex ∧
      String.ofList ((parts.lookup 1).getD []) ∈ s.outputs := by
  obtain ⟨c, opening, closing, fit, hne, hopening, -, htext⟩ := reads_substitutionForm hform hreads
  have hbefore : ∀ d ∈ (front ++ opening).getLast?, isWord d = false := by
    intro d hd
    rw [List.getLast?_append, List.getLast?_eq_some_getLast hne, Option.some_or] at hd
    cases hd
    exact hopening _ (List.getLast_mem hne)
  have hcall : h.run.toList = (front ++ opening) ++ ("terraform".toList ++ (c.tail ++ (closing ++ after))) := by
    rw [hrun, htext]
    simp
  obtain ⟨s, hs, hjob, hindex, -, houtputs⟩ := exists_terraformStep hh hcall hbefore fit.output
  refine ⟨s, hs, hjob, hindex, ?_⟩
  rw [hrun] at hplain
  rw [houtputs, hrun]
  exact output_named_of_substitution hform hreads hplain

/-- The output of every use of a Helm step is named by a Terraform step at the same place, unless the text
has a `-state=` flag from a call. -/
theorem Context.exists_namingStep_of_use (hh : h ∈ (ofTable workflow file).helmSteps) {use : DirectUse}
    (huse : use ∈ directUses h) (hplain : stateFromCall.occursIn h.run.toList = false) :
    ∃ s ∈ (ofTable workflow file).terraformSteps, s.jobId = h.jobId ∧ s.stepIndex = h.stepIndex ∧
      use.output ∈ s.outputs := by
  rcases List.mem_append.mp (mem_of_mem_directUses huse) with huse | huse
  · obtain ⟨⟨key, value⟩, hvalue, huse⟩ := List.mem_flatMap.mp huse
    obtain ⟨found, hfound, rfl⟩ := List.mem_map.mp huse
    obtain ⟨form, hform, hsearch⟩ := List.mem_filterMap.mp hfound
    obtain ⟨before, rest, hsplit, hmatch⟩ := exists_of_search hsearch
    obtain ⟨⟨after, rfl⟩, hreads⟩ := reads_of_matchBetween hmatch
    obtain ⟨front, back, hrun⟩ := setValues_stands hh hvalue
    have hstands : h.run.toList = (front ++ before) ++ (found.whole ++ (after ++ back)) := by
      rw [← hrun, hsplit]
      simp
    exact exists_namingStep hh hform hreads hstands hplain
  · obtain ⟨found, hfound, rfl⟩ := List.mem_map.mp huse
    obtain ⟨before, rest, hsplit, hmatch⟩ := exists_of_mem_findAll hfound
    obtain ⟨⟨after, rfl⟩, hreads⟩ := reads_of_matchBetween hmatch
    obtain ⟨f, fit, hwhole, hmarks⟩ := reads_inlineSetPattern.mp hreads
    have hsubstitution : (substituted inlineCall).Reads f.substitution [(1, f.call.name)] :=
      reads_substituted.mpr ⟨f.call, f.space, f.spaceAfter, fit.call, fit.space, fit.spaceAfter, rfl, rfl⟩
    have hstands : h.run.toList = (before ++ ("--set".toList ++ f.variant ++ (f.between ++ (f.key ++
        '=' :: f.quote)))) ++ (f.substitution ++ after) := by
      rw [hsplit, hwhole]
      simp [FlagPieces.text_eq]
    have hnamed := exists_namingStep hh List.mem_cons_self hsubstitution hstands hplain
    have hname : found.part 1 = f.call.name := by
      rw [Match.part, Match.part?, hmarks]
      rfl
    change ∃ s ∈ (ofTable workflow file).terraformSteps, s.jobId = h.jobId ∧ s.stepIndex = h.stepIndex ∧
      String.ofList (found.part 1) ∈ s.outputs
    rw [hname]
    exact hnamed

end

/-- Whatever the workflow, the direct detector does not fail, and each of its flows ends in a Helm step.  If
the text of that step has no `-state=` flag from a call, the step itself names the output and the flow stays
in its job. -/
theorem Context.direct_flows_stay (digest : Digest) (workflow : Table) (file : String) :
    let ctx := ofTable workflow file
    ∃ flows, flowsOf digest ctx (directCandidates ctx) = .ok flows ∧
      ∀ f ∈ flows, ∃ h ∈ ctx.helmSteps, h.jobId = f.target.jobId ∧ h.stepIndex = f.target.stepIndex ∧
        (stateFromCall.occursIn h.run.toList = false → f.source.jobId = f.target.jobId ∧
          ∃ s ∈ ctx.terraformSteps, s.jobId = h.jobId ∧ s.stepIndex = h.stepIndex ∧
            f.source.name ∈ s.outputs) := by
  intro ctx
  have consistent : ctx.Consistent := ofTable_consistent workflow file
  obtain ⟨flows, hflows, -⟩ := flowsOf_wellFormed (fun c hc => directCandidates_sound consistent hc) digest
  refine ⟨flows, hflows, fun f hf => ?_⟩
  obtain ⟨c, hc, hflow⟩ := (flowsOf_mem hflows).1 f hf
  obtain ⟨hsource, htarget⟩ := Candidate.flow_ends hflow
  obtain ⟨h, hh, hc⟩ := List.mem_flatMap.mp hc
  obtain ⟨use, huse, hc⟩ := List.mem_filterMap.mp hc
  obtain ⟨step, hstep, rfl⟩ := Option.map_eq_some_iff.mp hc
  rw [hsource, htarget]
  refine ⟨h, hh, rfl, rfl, fun hplain => ?_⟩
  obtain ⟨s, hs, hjob, hindex, houtput⟩ := exists_namingStep_of_use hh huse hplain
  obtain ⟨own, hown, hownJob⟩ := exists_ownOutputStep? hs hjob houtput
  rw [hstep] at hown
  cases hown
  exact ⟨hownJob, s, hs, hjob, hindex, houtput⟩

/-! ### A state that another output names -/

/-- One job names an output, and another one prints a second output from the state whose file the first one
names. -/
def deployFromState (state : String) : Table :=
  [(.text "infra", .table [(.text "script", .list [.text "terraform output path"])]),
    (.text "deploy", .table [(.text "script", .list [
      .text ("helm upgrade web ./c --set vpc=$(terraform output -state=" ++ state ++ " vpc)")])])]

/-- Without quotes around the inner substitution the flow stays in the second job. -/
theorem flow_stays_with_state :
    let ctx := Context.ofTable (deployFromState "$(terraform output path)") "ci.yml"
    ∃ flows, flowsOf plainDigest ctx (directCandidates ctx) = .ok flows ∧ flows ≠ [] ∧
      ∀ f ∈ flows, f.source.jobId = f.target.jobId := by
  intro ctx
  obtain ⟨flows, hflows, hstays⟩ :=
    Context.direct_flows_stay plainDigest (deployFromState "$(terraform output path)") "ci.yml"
  obtain ⟨hplain, hcount⟩ : (∀ h ∈ ctx.helmSteps, stateFromCall.occursIn h.run.toList = false) ∧
      (flowsOf plainDigest ctx (directCandidates ctx)).toOption.map List.length = some 1 := by
    decide +kernel
  refine ⟨flows, hflows, ?_, fun f hf => ?_⟩
  · rintro rfl
    rw [hflows] at hcount
    exact absurd hcount (by decide)
  · obtain ⟨h, hh, -, -, hstay⟩ := hstays f hf
    exact (hstay (hplain h hh)).1

/-- With quotes the flow starts in the first job. -/
theorem flow_leaves_its_job : ¬ ∀ (digest : Digest) (workflow : Table) (file : String) (flows : List Flow),
    flowsOf digest (.ofTable workflow file) (directCandidates (.ofTable workflow file)) = .ok flows →
      ∀ f ∈ flows, f.source.jobId = f.target.jobId := by
  intro stays
  have hjobs : (flowsOf plainDigest (.ofTable (deployFromState "\x22$(terraform output path)\x22") "ci.yml")
      (directCandidates (.ofTable (deployFromState "\x22$(terraform output path)\x22") "ci.yml"))).toOption.map
        (List.map fun f => (f.source.jobId, f.target.jobId)) = some [("infra", "deploy")] := by
    decide +kernel
  cases hflows : flowsOf plainDigest (.ofTable (deployFromState "\x22$(terraform output path)\x22") "ci.yml")
      (directCandidates (.ofTable (deployFromState "\x22$(terraform output path)\x22") "ci.yml")) with
  | error message =>
      rw [hflows] at hjobs
      cases hjobs
  | ok flows =>
      rw [hflows] at hjobs
      have hends : flows.map (fun f => (f.source.jobId, f.target.jobId)) = [("infra", "deploy")] :=
        Option.some.inj hjobs
      obtain ⟨f, hf, hleaves⟩ := List.mem_map.mp (hends ▸ List.mem_singleton_self ("infra", "deploy"))
      obtain ⟨hsource, htarget⟩ := Prod.mk.inj hleaves
      have hsame := stays _ _ _ flows hflows f hf
      rw [hsource, htarget] at hsame
      exact absurd hsame (by decide)

end DeployTrace
