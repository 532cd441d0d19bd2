/-
  DeployTrace/Detection/Artifact.lean --- outputs relayed through an artifact.

  WHAT THIS FILE IS FOR.  A job that runs Terraform uploads files, another job downloads them, and a
  Helm step there reads them.  Uploads and downloads belong together when their names are alike.

  THE ORDER OF UPLOADS.  Uploads are sorted by the place of their job in the workflow and then by their
  step.  No two uploads share both, so the result does not depend on the order in which the jobs that
  run Terraform are gone through.
-/
import DeployTrace.Detection.Candidate
import DeployTrace.Detection.File

set_option autoImplicit false

namespace DeployTrace

open Text Pattern

/-! ## Uploads and downloads -/

/-- An upload of files by a job that runs Terraform. -/
structure Upload where
  jobId : String
  stepIndex : Nat
  name : String
  paths : List String
  /-- whether the files look as if they held outputs -/
  holdsOutput : Bool
  deriving DecidableEq, Repr

/-- A download of an artifact. -/
structure Download where
  jobId : String
  stepIndex : Nat
  name : String
  path : Option String
  deriving DecidableEq, Repr

/-- The paths of an upload: the lines of its setting without those that exclude something. -/
def artifactPaths (setting : Tree) : List String :=
  match setting with
  | .text paths => ((lines paths).map strip).filter fun line => !line.isEmpty && !startsWith line "!"
  | _ => []

/-- Shapes of paths that hold outputs, matched without regard to case. -/
def outputPathForms : List Pattern :=
  [seq [wordIgnoringCase "terraform", line, wordIgnoringCase "output"],
    seq [wordIgnoringCase "tf", line, wordIgnoringCase "output"],
    wordIgnoringCase ".tfoutput",
    seq [wordIgnoringCase "output", optional (wordIgnoringCase "s"), wordIgnoringCase ".json"]]

/-- Whether some path looks like outputs or is mentioned by a Terraform step of the job. -/
def pathsHoldOutput (paths : List String) (steps : List TerraformStep) : Bool :=
  paths.any fun path =>
    outputPathForms.any (·.occursIn path.toList) || steps.any fun s => contains s.run path

/-- The arguments of a step that uses an action. -/
def actionArguments (step : Table) : Table := (step.field "with").table?.getD []

/-- The name an artifact is given, or the one it has by default. -/
def artifactName (arguments : Table) : String := ((arguments.field "name").orElse (.text "artifact")).written

/-- The steps of a job that use an action, each with its index. -/
def stepsUsing (action : String) (job : Tree) : List (Table × Nat) :=
  (jobSteps job).zipIdx.filter fun (step, _) => contains (usesText step) action

/-- The uploads of one job. -/
def uploadsOf (ctx : Context) (jobId : String) : List Upload :=
  let steps := ctx.terraformSteps.filter (·.jobId == jobId)
  (stepsUsing "upload-artifact" (ctx.job jobId)).map fun (step, index) =>
    let arguments := actionArguments step
    let paths := artifactPaths (arguments.field "path")
    { jobId := jobId, stepIndex := index, name := artifactName arguments, paths := paths,
      holdsOutput := pathsHoldOutput paths steps }

/-- The place of a job in the workflow. -/
def Context.jobPlace (ctx : Context) (jobId : String) : Nat := ctx.jobs.names.idxOf jobId

/-- The order of uploads: by job and then by step. -/
def uploadPrecedes (ctx : Context) (a b : Upload) : Bool :=
  ctx.jobPlace a.jobId < ctx.jobPlace b.jobId ||
    (ctx.jobPlace a.jobId == ctx.jobPlace b.jobId && a.stepIndex < b.stepIndex)

/-- The uploads of some jobs, gone through in any order. -/
def uploadsOver (ctx : Context) (jobIds : List String) : List Upload :=
  sortBy (uploadPrecedes ctx) (jobIds.flatMap (uploadsOf ctx))

/-- The jobs that run Terraform. -/
def terraformJobs (ctx : Context) : List String := distinct (ctx.terraformSteps.map (·.jobId))

/-- The uploads of all jobs that run Terraform. -/
def uploads (ctx : Context) : List Upload := uploadsOver ctx (terraformJobs ctx)

/-- The downloads of a job. -/
def downloadsOf (ctx : Context) (jobId : String) : List Download :=
  (stepsUsing "download-artifact" (ctx.job jobId)).map fun (step, index) =>
    let arguments := actionArguments step
    { jobId := jobId, stepIndex := index, name := artifactName arguments,
      path := arguments.text? "path" }

/-! ## What belongs together -/

/-- Words that make two names of artifacts alike when both have one. -/
def artifactWords : List String := ["terraform", "tf", "output"]

/-- Whether two names of artifacts are alike: one is in the other, or they share a word. -/
def artifactNamesMatch (uploadName downloadName : String) : Bool :=
  let a := lower uploadName
  let b := lower downloadName
  contains b a || contains a b || artifactWords.any fun w => contains a w && contains b w

/-- The path of a download without blanks around it, unless it names no place. -/
def Download.place? (d : Download) : Option String :=
  match d.path with
  | some path =>
    if path.isEmpty || [".", "./", "/"].contains (strip path) then none else some (strip path)
  | none => none

/-- Parts of names that mark files of outputs. -/
def sharedMarkers : List String := ["tf-output", "terraform-output", "outputs.json", ".tfoutput"]

/-- The paths by which a Helm step may mention an artifact. -/
def artifactMentions (d : Download) (u : Upload) : List String :=
  (d.place?.toList ++ u.paths.flatMap fun path => [path, Path.name path]).filter (!·.isEmpty)

/-- Whether a Helm step reads an artifact: its text or a values file mentions a path, or both sides have
a marker of output files. -/
def usesArtifact (h : HelmStep) (d : Download) (u : Upload) : Bool :=
  let mentions := artifactMentions d u
  mentions.any (contains h.run) ||
    (h.valuesFiles.any fun file => mentions.any (filesMatch file)) ||
    sharedMarkers.any fun marker =>
      contains (lower h.run) marker && contains (lower (" ".intercalate u.paths)) marker

/-- The output that stands for an upload: the stem of the first path that has one. -/
def Upload.outputName (u : Upload) : String :=
  if !u.holdsOutput then "artifact_data"
  else ((u.paths.map Path.stem).find? fun stem => !(["", "*", "**"].contains stem)).getD "outputs"

/-! ## Candidates -/

/-- The last Terraform step of the upload's job up to the upload. -/
def lastStepBefore? (ctx : Context) (u : Upload) : Option TerraformStep :=
  (ctx.terraformSteps.filter fun s => s.jobId == u.jobId && s.stepIndex ≤ u.stepIndex).getLast?

/-- A text unless it is empty, and otherwise the other. -/
def nonemptyOr (text other : String) : String := if text.isEmpty then other else text

/-- The candidate for an artifact that a Helm step reads. -/
def artifactCandidate (ctx : Context) (h : HelmStep) (u : Upload) (d : Download) : Candidate :=
  let last := lastStepBefore? ctx u
  { pattern := .artifactTransfer,
    source := {
      name := u.outputName, jobId := u.jobId, stepIndex := u.stepIndex,
      command := (last.map (·.command)).getD "output", workingDir := last.bind (·.workingDir),
      location := some ctx.location },
    target := ctx.target h (d.place?.getD "values") .valuesFile,
    evidence := [
      { kind := .artifactPath,
        description := "Job '" ++ u.jobId ++ "' uploads artifact '" ++ u.name ++ "'",
        strength := 75, snippet := some (nonemptyOr (", ".intercalate u.paths) u.name) },
      { kind := .artifactPath,
        description := "Job '" ++ h.jobId ++ "' downloads artifact '" ++ d.name ++ "'",
        strength := 75, snippet := some (nonemptyOr (d.path.getD "") d.name) }] ++
      (if ctx.dependsOn h.jobId u.jobId then [dependencyEvidence u.jobId h.jobId 85] else []) ++
      (if u.holdsOutput then
        [{ kind := .explicitReference,
           description := "Artifact content is produced by terraform output",
           strength := 80, location := some ctx.location }] else []) }

/-- The jobs that run Helm. -/
def helmJobs (ctx : Context) : List String := distinct (ctx.helmSteps.map (·.jobId))

/-- The candidates for one job that runs Helm. -/
def artifactCandidatesIn (ctx : Context) (uploads : List Upload) (helmJob : String) : List Candidate :=
  let downloads := downloadsOf ctx helmJob
  (uploads.filter (·.jobId != helmJob)).flatMap fun u =>
    (downloads.filter fun d => artifactNamesMatch u.name d.name).flatMap fun d =>
      (ctx.helmSteps.filter fun h => h.jobId == helmJob && usesArtifact h d u).map fun h =>
        artifactCandidate ctx h u d

/-- The candidates of all jobs that run Helm. -/
def artifactCandidates (ctx : Context) : List Candidate :=
  (helmJobs ctx).flatMap (artifactCandidatesIn ctx (uploads ctx))

end DeployTrace
