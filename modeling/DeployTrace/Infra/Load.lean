/-
  DeployTrace/Infra/Load.lean --- the nodes of a directory.

  Terraform files come first, then charts, then lists of releases, each kind in the order of the names
  along the way.  The first fault ends the reading.
-/
import DeployTrace.Infra.Chart
import DeployTrace.Format.Yaml.Value

set_option autoImplicit false

namespace DeployTrace

/-- The nodes that the files of a directory declare, and how many files were read. -/
structure InfraReading where
  nodes : Infrastructure
  fileCount : Nat
  deriving Repr

namespace InfraReading

/-- Whether a name is that of a Terraform file. -/
def isTerraformName (name : String) : Bool := Text.endsWith name ".tf"

/-- Whether a name is that of a chart file. -/
def isChartName (name : String) : Bool := name == "Chart.yaml"

/-- Whether a name is that of a list of releases. -/
def isReleasesName (name : String) : Bool := name == "helmfile.yaml" || name == "helmfile.yml"

/-- The nodes of the files at some places in a directory; faults name the files below its path. -/
def readAll {α : Type} (path : String) (tree : FileTree) (read? : String → Option α)
    (nodes : String → α → Except FileFault (List InfraNode)) (places : List Place) :
    Except FileFault (List InfraNode) := do
  let found ← places.mapM fun place =>
    match tree.read? place with
    | none => .error .directory
    | some text =>
      match read? text with
      | none => .error (.malformed (Text.Path.below path place))
      | some content => nodes ("/".intercalate place) content
  .ok found.flatten

/-- The nodes of the files at three lists of places in a directory. -/
def ofPlaces (digest : Digest) (path : String) (tree : FileTree) (files charts lists : List Place) :
    Except FileFault InfraReading := do
  let terraform ← readAll path tree Hcl.read? (Terraform.nodes digest) files
  let chartNodes ← readAll path tree (Yaml.read? .asTruth) (fun file t => .ok (Chart.nodes digest file t)) charts
  let releases ← readAll path tree (Yaml.read? .asTruth) (fun file t => .ok (Chart.releases digest file t)) lists
  .ok { nodes := { terraform := terraform, helm := chartNodes ++ releases },
        fileCount := files.length + charts.length + lists.length }

/-- The nodes of a directory with a path. -/
def ofTree (digest : Digest) (path : String) (tree : FileTree) : Except FileFault InfraReading :=
  let files := tree.search isTerraformName
  let charts := tree.search isChartName
  let lists := tree.search isReleasesName
  if files.isEmpty && charts.isEmpty && lists.isEmpty then .error (.nothingFound path)
  else ofPlaces digest path tree files charts lists

/-- The nodes of the directory that a path leads to; if it leads to none, there are none. -/
def load (digest : Digest) (find : FileLookup) (path : String) : Except FileFault InfraReading :=
  let path := Text.Path.tidy path
  match find path with
  | some (.directory tree) => ofTree digest path tree
  | _ => .error (.nothingFound path)

end InfraReading

end DeployTrace
