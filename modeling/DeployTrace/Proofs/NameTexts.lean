/-
  DeployTrace/Proofs/NameTexts.lean --- what the text of a name says about its parts.

  WHAT THIS FILE IS FOR.  The name of a flow is a digest of a text that joins its two jobs and its output
  by colons, and the name of a job is one of a text that joins its file and its own name.  Jobs may have
  colons in their names, and nothing marks those.  It is shown here how much of the parts can be read back
  from such a text, whatever characters the parts are made of.

  WHAT HOLDS.  A text shows the pieces between colons, all in one row, and not where one part ends and the
  next one begins.  So two texts are the same exactly if the rows of pieces are, and the parts are the same
  exactly if, besides, all parts but the last have as many pieces on both sides.
-/
import DeployTrace.Proofs.Identities

set_option autoImplicit false

namespace DeployTrace

open Text

/-! ## Pieces between colons -/

/-- The pieces of a text between its colons. -/
def pieces (text : String) : List String := split ':' text

/-- Joining two texts by a colon puts their pieces one after the other. -/
theorem pieces_joined (a b : String) : pieces (a ++ ":" ++ b) = pieces a ++ pieces b := by
  have hchars : (a ++ ":" ++ b).toList = a.toList ++ ':' :: b.toList := by simp
  rw [pieces, split, hchars, List.splitOn_append_cons_self, List.map_append]
  rfl

/-- A text is known by its pieces. -/
theorem pieces_inj {a b : String} : pieces a = pieces b ↔ a = b := by
  constructor
  · intro h
    have hsplit : a.toList.splitOn ':' = b.toList.splitOn ':' :=
      List.map_injective_iff.mpr (fun _ _ hchars => String.ofList_injective hchars) h
    have hjoined := congrArg (List.intercalate [':']) hsplit
    rw [List.intercalate_splitOn, List.intercalate_splitOn] at hjoined
    exact String.toList_inj.mp hjoined
  · rintro rfl
    rfl

/-- Texts of two parts are the same if their rows of pieces are. -/
theorem joined_eq_iff {a b a' b' : String} :
    a ++ ":" ++ b = a' ++ ":" ++ b' ↔ pieces a ++ pieces b = pieces a' ++ pieces b' := by
  rw [← pieces_inj, pieces_joined, pieces_joined]

/-- Rows of which the first parts have as many pieces are cut at the same place. -/
theorem pieces_append_inj {a a' : String} {row row' : List String}
    (hcount : (pieces a).length = (pieces a').length) :
    pieces a ++ row = pieces a' ++ row' ↔ a = a' ∧ row = row' := by
  constructor
  · intro h
    obtain ⟨hpieces, hrow⟩ := List.append_inj h hcount
    exact ⟨pieces_inj.mp hpieces, hrow⟩
  · rintro ⟨rfl, rfl⟩
    rfl

/-! ## Texts of flows and of jobs -/

section

variable {source source' target target' output output' file file' job job' : String}

theorem Flow.idText_eq_iff :
    Flow.idText source target output = Flow.idText source' target' output' ↔
      pieces source ++ (pieces target ++ pieces output) =
        pieces source' ++ (pieces target' ++ pieces output') := by
  rw [Flow.idText_joined, Flow.idText_joined, String.append_right_inj, joined_eq_iff, pieces_joined, pieces_joined]

theorem jobText_eq_iff :
    jobText file job = jobText file' job' ↔
      pieces (comparablePath file) ++ pieces job = pieces (comparablePath file') ++ pieces job' := by
  have joined : ∀ f j, jobText f j = "job:" ++ (comparablePath f ++ ":" ++ j) := by
    intro f j
    unfold jobText
    simp only [String.append_assoc]
  rw [joined, joined, String.append_right_inj, joined_eq_iff]

end

/-- Names are made from texts that tell their parts apart by pieces.  The texts of two flows are the same
exactly if their jobs and outputs have the same pieces in a row, and their jobs and outputs are the same
exactly if, besides, the source jobs have as many pieces and so have the target jobs.  In the same way the
text of a job shows its file, up to case and the direction of slashes, and its name. -/
theorem parts_by_pieces (source target output source' target' output' file job file' job' : String) :
    ((Flow.idText source target output = Flow.idText source' target' output' ↔
        pieces source ++ (pieces target ++ pieces output) =
          pieces source' ++ (pieces target' ++ pieces output')) ∧
      (source = source' ∧ target = target' ∧ output = output' ↔
        Flow.idText source target output = Flow.idText source' target' output' ∧
          (pieces source).length = (pieces source').length ∧
          (pieces target).length = (pieces target').length)) ∧
    (jobText file job = jobText file' job' ↔
        pieces (comparablePath file) ++ pieces job = pieces (comparablePath file') ++ pieces job') ∧
      (comparablePath file = comparablePath file' ∧ job = job' ↔
        jobText file job = jobText file' job' ∧
          (pieces (comparablePath file)).length = (pieces (comparablePath file')).length) := by
  refine ⟨⟨Flow.idText_eq_iff, ?_, ?_⟩, jobText_eq_iff, ?_, ?_⟩
  · rintro ⟨rfl, rfl, rfl⟩
    exact ⟨rfl, rfl, rfl⟩
  · rintro ⟨htext, hsource, htarget⟩
    have hrow := Flow.idText_eq_iff.mp htext
    rw [pieces_append_inj hsource, pieces_append_inj htarget, pieces_inj] at hrow
    exact hrow
  · rintro ⟨hpath, rfl⟩
    exact ⟨jobText_eq_iff.mpr (by rw [hpath]), by rw [hpath]⟩
  · rintro ⟨htext, hpath⟩
    have hrow := jobText_eq_iff.mp htext
    rw [pieces_append_inj hpath, pieces_inj] at hrow
    exact hrow

/-! ### Two jobs that feed each other -/

/-- Two jobs that hand an output to each other, of which the name of one holds a colon. -/
def mutualJobs : Table :=
  [(.text "a", .table [(.text "script", .list [.text "A=$(terraform output x)",
      .text "helm upgrade web ./c --set k=$B"])]),
    (.text "a:a", .table [(.text "script", .list [.text "B=$(terraform output x)",
      .text "helm upgrade web ./c --set k=$A"])])]

/-- The two directions between the two jobs have one text, so that both of the flows that are reported go by
one name.  Neither do the texts of jobs tell all files and jobs apart. -/
theorem parts_not_told_apart :
    (¬ ∀ source target output source' target' output' : String,
      (source, target, output) ≠ (source', target', output') →
        Flow.idText source target output ≠ Flow.idText source' target' output') ∧
    (¬ ∀ file job file' job' : String, (comparablePath file ≠ comparablePath file' ∨ job ≠ job') →
      jobText file job ≠ jobText file' job') ∧
    (flowsInContext {} (detectors plainDigest) (.ofTable mutualJobs "ci.yml")).map
        (fun f => (f.source.jobId, f.target.jobId, f.source.name, f.id)) =
      [("a:a", "a", "x", "tf-helm-TF_HELM_FLOW:a:a:a:x"), ("a", "a:a", "x", "tf-helm-TF_HELM_FLOW:a:a:a:x")] := by
  refine ⟨?_, ?_, by decide +kernel⟩
  · intro apart
    exact apart "a" "a:a" "x" "a:a" "a" "x" (by decide) (by decide)
  · intro apart
    exact apart "a" "b:c" "a:b" "c" (Or.inr (by decide)) (by decide +kernel)

end DeployTrace
