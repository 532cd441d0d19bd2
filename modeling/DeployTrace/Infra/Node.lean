/-
  DeployTrace/Infra/Node.lean --- what infrastructure files declare.

  A node is a Terraform module, resource or output, or a Helm chart, release or value.  What else is
  known of it depends on where it is from, so it comes as a table of facts.
-/
import DeployTrace.Tree.Basic

set_option autoImplicit false

namespace DeployTrace

/-- The kind of a node. -/
inductive NodeKind where
  | terraformModule
  | terraformResource
  | terraformOutput
  | terragruntUnit
  | helmRelease
  | helmChart
  | helmValue
  | helmfileRelease
  /-- a kind that belongs to neither tool -/
  | foreign (name : String)
  deriving DecidableEq, Repr

namespace NodeKind

/-- The kinds of nodes that Terraform operations act on. -/
def ofTerraform : List NodeKind := [terraformModule, terraformResource, terraformOutput, terragruntUnit]

/-- The kinds of nodes that Helm operations act on. -/
def ofHelm : List NodeKind := [helmRelease, helmChart, helmValue, helmfileRelease]

/-- The spelling of a kind. -/
def name : NodeKind → String
  | terraformModule => "terraform_module"
  | terraformResource => "terraform_resource"
  | terraformOutput => "terraform_output"
  | terragruntUnit => "terragrunt_unit"
  | helmRelease => "helm_release"
  | helmChart => "helm_chart"
  | helmValue => "helm_value"
  | helmfileRelease => "helmfile_release"
  | foreign name => name

/-- The kind with a spelling. -/
def ofName (s : String) : NodeKind :=
  ((ofTerraform ++ ofHelm).find? fun k => k.name == s).getD (foreign s)

/-- Whether Terraform operations act on nodes of a kind. -/
def isTerraform (k : NodeKind) : Bool := ofTerraform.contains k

/-- Whether Helm operations act on nodes of a kind. -/
def isHelm (k : NodeKind) : Bool := ofHelm.contains k

end NodeKind

/-- Something that a file declares. -/
structure InfraNode where
  id : String
  kind : NodeKind
  name : String
  filePath : String
  facts : Table := []
  deriving Repr

/-- A fact about a node, null when it is not known. -/
def InfraNode.fact (n : InfraNode) (name : String) : Tree := n.facts.field name

/-- A node as data. -/
def InfraNode.toTree (n : InfraNode) : Tree :=
  .ofFields [("id", .text n.id), ("type", .text n.kind.name), ("name", .text n.name),
    ("filePath", .text n.filePath), ("metadata", .table n.facts)]

/-- The nodes that jobs can be linked to, by the tool that acts on them. -/
structure Infrastructure where
  terraform : List InfraNode
  helm : List InfraNode
  deriving Repr

end DeployTrace
