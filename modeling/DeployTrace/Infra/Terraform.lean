/-
  DeployTrace/Infra/Terraform.lean --- the nodes that a Terraform file declares.

  Outputs, modules and resources are blocks with labels.  The file need not hold what Terraform would
  accept: a label may be missing, and an attribute may stand where blocks should.
-/
import DeployTrace.Files.Basic
import DeployTrace.Format.Hcl
import DeployTrace.Tree.Written
import DeployTrace.Digest.Identifier
import DeployTrace.Infra.Node

set_option autoImplicit false

namespace DeployTrace

/-- A node of a file with the identifier that its kind, file and name give. -/
def InfraNode.declared (digest : Digest) (kind : NodeKind) (file name : String) (facts : List (String × Tree)) :
    InfraNode :=
  { id := declarationId digest kind.name file name, kind := kind, name := name, filePath := file,
    facts := facts.map fun (key, value) => (.text key, value) }

namespace Terraform

/-- A label without its quotes. -/
def label (text : String) : String := Text.stripOf ['\x22'] text

/-- The labels in a block and what stands under them. -/
def labelled (block : Table) : List (String × Tree) :=
  (block.filter fun (key, _) => !Text.startsWith key.written "__").map fun (key, value) => (label key.written, value)

/-- The blocks of a kind in a file, if all that stands under it is blocks. -/
def blocks (file : Table) (kind : String) : Except FileFault (List Table) :=
  match file.field? kind with
  | none => .ok []
  | some (.list items) => items.mapM fun item => match item with
    | .table block => .ok block
    | _ => .error .noBlock
  | some (.table entries) => if entries.isEmpty then .ok [] else .error .noBlock
  | some (.text s) => if s.isEmpty then .ok [] else .error .noBlock
  | some _ => .error .noCollection

/-- Whether an output is marked as one that must not be shown. -/
def isSensitive (output : Tree) : Bool :=
  match output.field "sensitive" with
  | .bool b => b
  | _ => false

/-- The node of an output. -/
def outputNode (digest : Digest) (file name : String) (output : Tree) : InfraNode :=
  .declared digest .terraformOutput file name [("modulePath", .text (Text.Path.parent file)),
    ("outputName", .text name), ("sensitive", .bool (isSensitive output))]

/-- Where the files of a module are from, if that is written. -/
def moduleSource (module : Tree) : Option String :=
  let source := module.field "source"
  if source.isTruthy then some (label source.written) else none

/-- The directory of a module's files: the source if it is one, or else that of the file that uses it. -/
def modulePath (file : String) (source : Option String) : String :=
  match source.filter fun s => Text.startsWith s "." with
  | some s => Text.Path.normalize (Text.Path.parent file ++ "/" ++ s)
  | none => Text.Path.parent file

/-- The node of a module. -/
def moduleNode (digest : Digest) (file name : String) (module : Tree) : InfraNode :=
  let source := moduleSource module
  .declared digest .terraformModule file name [("modulePath", .text (modulePath file source)),
    ("source", .ofText? source)]

/-- The nodes of the resources of one type. -/
def resourceNodes (digest : Digest) (file kind : String) (instances : Tree) : List InfraNode :=
  (labelled (instances.table?.getD [])).map fun (name, _) =>
    .declared digest .terraformResource file (kind ++ "." ++ name)
      [("modulePath", .text (Text.Path.parent file)), ("resourceType", .text kind)]

/-- The nodes that a file declares: outputs, then modules, then resources. -/
def nodes (digest : Digest) (file : String) (content : Table) : Except FileFault (List InfraNode) := do
  let outputs ← blocks content "output"
  let modules ← blocks content "module"
  let resources ← blocks content "resource"
  .ok ((outputs.flatMap labelled).map (fun (name, output) => outputNode digest file name output)
    ++ (modules.flatMap labelled).map (fun (name, module) => moduleNode digest file name module)
    ++ (resources.flatMap labelled).flatMap fun (kind, instances) => resourceNodes digest file kind instances)

end Terraform

end DeployTrace
