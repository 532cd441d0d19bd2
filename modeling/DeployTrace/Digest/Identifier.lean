/-
  DeployTrace/Digest/Identifier.lean --- names of nodes and edges.

  A name is a word for the kind and a digest of a text that says what is named.  Paths of pipelines are
  compared without regard to case and to the direction of slashes, so the text is made from one spelling
  of them.
-/
import DeployTrace.Digest.Basic
import DeployTrace.Text.Casing
import DeployTrace.Text.Cut

set_option autoImplicit false

namespace DeployTrace

open Text

/-- The text that names an edge. -/
def edgeText (kind source target : String) : String := kind ++ ":" ++ source ++ ":" ++ target

/-- The name of an edge of a kind between two nodes, in that direction. -/
def edgeId (digest : Digest) (kind source target : String) : String :=
  replaceChar '_' '-' (lower kind) ++ "-" ++ digest.short (edgeText kind source target)

/-- The spelling of a path by which pipelines are told apart. -/
def comparablePath (path : String) : String := lower (replaceChar '\\' '/' path)

/-- The text that names a pipeline. -/
def pipelineText (file : String) : String := "pipeline:" ++ comparablePath file

/-- The name of the pipeline in a file. -/
def pipelineId (digest : Digest) (file : String) : String :=
  "pipeline-" ++ digest.short (pipelineText file)

/-- The text that names a job. -/
def jobText (file job : String) : String := "job:" ++ comparablePath file ++ ":" ++ job

/-- The name of a job of the pipeline in a file. -/
def jobId (digest : Digest) (file job : String) : String := "job-" ++ digest.short (jobText file job)

/-- The name of something that a file declares. -/
def declarationId (digest : Digest) (kind file name : String) : String :=
  replaceChar '_' '-' kind ++ "-" ++ digest.short (edgeText kind file name)

end DeployTrace
