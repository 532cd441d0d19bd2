/-
  DeployTrace/Proofs/ReleaseNames.lean --- the release that detection reports and the one that linking
  looks for.

  WHAT THIS FILE IS FOR.  The release of a Helm step is read twice.  Detection settles on a subcommand for
  the whole text, install before upgrade and so on, and reads the arguments after the first call with
  that one.  Linking reads the arguments after the first call with ANY subcommand that names a release,
  and counts one that detection does not look for.

      helm uninstall old           Detection reports the release `web`.
      helm upgrade web             Linking looks for the release `old`.

  SO THE TWO AGREE where the first call has the subcommand that detection settled on
  (`releaseName?_of_reported`), and wherever detection reports a release, there is a first call.
-/
import DeployTrace.Link.Score
import DeployTrace.Proofs.Contexts
import DeployTrace.Proofs.HelmCalls
import DeployTrace.Proofs.JoinedLines

set_option autoImplicit false

namespace DeployTrace

open Text Shell.Helm

/-! ## First calls with more subcommands -/

section

variable {verb : String} {verbs others : List String} {text : Chars}

/-- Where a call with one subcommand stands, there is a first call with this one or another. -/
theorem Shell.Helm.FirstCall.exists_of_subset (h : FirstCall verbs text verb) (hsubset : verbs ⊆ others)
    (hothers : ∀ v ∈ others, v ∈ releaseVerbs) : ∃ other, FirstCall others text other := by
  obtain ⟨hverb, before, call, rest, rfl, hcall, -⟩ := h
  obtain ⟨m, hmatch, -⟩ := hcall.exists_match (hsubset hverb) hothers
  have hsome : ((callLine others).matchBetween before call).isSome = true := by
    rw [hmatch]
    rfl
  obtain ⟨found, hfound⟩ := Option.isSome_iff_exists.mp (occursIn_of_matchBetween hsome)
  obtain ⟨before, call, htext, hmatch, hnone⟩ := exists_first_of_search hfound
  obtain ⟨other, hother, rest, hcall⟩ := exists_callsAt_of_match hmatch hothers
  exact ⟨other, hother, before, call, rest, htext, hcall, (noneBefore_callLine_iff hothers).mp hnone⟩

end

/-! ## What is read of a step -/

section

variable {job : Tree} {jobId : String} {index : Nat} {step : Table} {h : HelmStep}

theorem helmStep?_release (hread : helmStep? job jobId index step = some h) :
    h.run = runText step ∧ h.command = Shell.Helm.command h.run.toList ∧
      h.releaseName = (releaseAndChart h.run.toList h.command).1 := by
  unfold helmStep? at hread
  simp only at hread
  split at hread
  · cases hread
  · cases hread
    exact ⟨rfl, rfl, rfl⟩

/-- A reported release is the first argument of a call with the subcommand. -/
theorem positionals_of_release {text : Chars} {command release : String}
    (h : (releaseAndChart text command).1 = some release) :
    command ∈ releaseVerbs ∧ (positionals [command] text)[0]? = some release := by
  unfold releaseAndChart at h
  split at h
  · rename_i hcommand
    simp only [Bool.or_eq_true, beq_iff_eq] at hcommand
    have hverb : command ∈ releaseVerbs := by
      rcases hcommand with (rfl | rfl) | rfl <;> decide
    refine ⟨hverb, ?_⟩
    split at h
    · cases h
    · rename_i only hpositionals
      split at h
      · cases h
      · rw [hpositionals]
        exact h
    · rename_i first chart rest hpositionals
      rw [hpositionals]
      exact h
  · cases h

end

/-! ## The two readers -/

/-- Where detection reports a release for a step, one subcommand is the first that the text calls; linking
reads the first argument of the first call with that one, which is the reported release if detection
settled on the same subcommand. -/
theorem releaseName?_of_reported {job : Tree} {jobId : String} {h : HelmStep} {release : String}
    (hmem : h ∈ helmSteps job jobId) (hrelease : h.releaseName = some release) :
    ∃ verb ∈ releaseVerbs, (∀ other, FirstCall releaseVerbs h.run.toList other ↔ other = verb) ∧
      releaseName? h.run = (positionals [verb] h.run.toList)[0]? ∧
      (verb = h.command → releaseName? h.run = some release) := by
  obtain ⟨index, step, -, hread⟩ := mem_readSteps.mp hmem
  obtain ⟨hrun, -, hname⟩ := helmStep?_release hread
  rw [hname] at hrelease
  obtain ⟨hcommand, hargument⟩ := positionals_of_release hrelease
  have hown : ∀ v ∈ [h.command], v ∈ releaseVerbs := fun v hv => List.mem_singleton.mp hv ▸ hcommand
  have hne : positionals [h.command] h.run.toList ≠ [] := by
    intro hnil
    rw [hnil] at hargument
    cases hargument
  obtain ⟨called, hcalled⟩ := exists_firstCall hne hown
  obtain ⟨verb, hverb⟩ := hcalled.exists_of_subset hown fun _ hv => hv
  have hread : releaseName? h.run = (positionals [verb] h.run.toList)[0]? := by
    unfold releaseName? releaseArguments
    rw [hrun, joinLines_runText, ← hrun, hverb.positionals_eq fun _ hv => hv]
  refine ⟨verb, hverb.1, fun other => ⟨fun hother => hother.unique hverb fun _ hv => hv, ?_⟩, hread, ?_⟩
  · rintro rfl
    exact hverb
  · rintro rfl
    exact hread.trans hargument

/-- A job that runs one text. -/
def oneScript (text : String) : Tree := .table [(.text "script", .text text)]

/-- What both readers say about the steps of a job. -/
def readings (job : Tree) : List (String × String × Option String × Option String) :=
  (helmSteps job "deploy").map fun h => (h.run, h.command, h.releaseName, releaseName? h.run)

/-- A text that upgrades one release and then removes another one. -/
theorem releaseName?_of_reported_upgrade :
    ∃ h ∈ helmSteps (oneScript "helm upgrade web ./chart\nhelm uninstall old") "deploy",
      h.releaseName = some "web" ∧ releaseName? h.run = some "web" := by
  have hread : readings (oneScript "helm upgrade web ./chart\nhelm uninstall old") =
      [("helm upgrade web ./chart\nhelm uninstall old", "upgrade", some "web", some "web")] := by
    decide +kernel
  obtain ⟨h, hsteps, heq⟩ := List.map_eq_singleton_iff.mp hread
  simp only [Prod.mk.injEq] at heq
  obtain ⟨hrun, hcommand, hrelease, -⟩ := heq
  have hmem : h ∈ helmSteps (oneScript "helm upgrade web ./chart\nhelm uninstall old") "deploy" := by
    rw [hsteps]
    exact List.mem_singleton_self h
  obtain ⟨verb, -, honly, -, hsame⟩ := releaseName?_of_reported hmem hrelease
  have hcall : CallsAt "upgrade" [] h.run.toList " web ./chart\nhelm uninstall old".toList := by
    rw [hrun]
    exact ⟨by simp, by simp [isWord], [' '], isGap_blank, by decide +kernel⟩
  have hfirst : FirstCall releaseVerbs h.run.toList "upgrade" :=
    ⟨by decide, [], _, _, rfl, hcall, fun _ _ _ hlt => absurd hlt (Nat.not_lt_zero _)⟩
  exact ⟨h, hmem, hrelease, hsame (((honly "upgrade").mp hfirst).symm.trans hcommand.symm)⟩

/-- Linking may look for another release than the reported one. -/
theorem releaseName?_of_other_call : ¬ ∀ (job : Tree) (jobId : String), ∀ h ∈ helmSteps job jobId,
    ∀ release, h.releaseName = some release → releaseName? h.run = some release := by
  intro agree
  have hread : readings (oneScript "helm uninstall old\nhelm upgrade web") =
      [("helm uninstall old\nhelm upgrade web", "upgrade", some "web", some "old")] := by
    decide +kernel
  obtain ⟨h, hsteps, heq⟩ := List.map_eq_singleton_iff.mp hread
  simp only [Prod.mk.injEq] at heq
  obtain ⟨-, -, hrelease, hlinked⟩ := heq
  have hmem : h ∈ helmSteps (oneScript "helm uninstall old\nhelm upgrade web") "deploy" := by
    rw [hsteps]
    exact List.mem_singleton_self h
  rw [agree _ _ h hmem _ hrelease] at hlinked
  exact absurd hlinked (by decide)

end DeployTrace
