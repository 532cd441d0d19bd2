/-
  DeployTrace/Files/Workflow.lean --- reading a workflow file.

  In a workflow the words for truth values stay texts: `on` is the key under which triggers stand.
-/
import DeployTrace.Files.Basic
import DeployTrace.Format.Yaml.Value

set_option autoImplicit false

namespace DeployTrace

/-- The workflow that a text holds; an empty text holds an empty one. -/
def readWorkflowText (path text : String) : Except FileFault Table :=
  match Yaml.read? .asText text with
  | none => .error (.malformed path)
  | some .null => .ok []
  | some (.table workflow) => .ok workflow
  | some _ => .error (.noTable path)

/-- The workflow in the file at a path. -/
def readWorkflow (find : FileLookup) (path : String) : Except FileFault Table :=
  match (find path).bind FileEntry.read? with
  | some text => readWorkflowText (Text.Path.tidy path) text
  | none => .error .directory

end DeployTrace
