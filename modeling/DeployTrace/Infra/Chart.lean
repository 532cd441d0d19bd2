/-
  DeployTrace/Infra/Chart.lean --- the nodes that charts and lists of releases declare.

  A chart file without a name declares nothing, and so does a release without one.
-/
import DeployTrace.Infra.Terraform

set_option autoImplicit false

namespace DeployTrace.Chart

/-- The name in a table, if there is one that counts. -/
def nameIn (entries : Tree) : Option String :=
  let name := entries.field "name"
  if name.isTruthy then some name.written else none

/-- The nodes of a chart file. -/
def nodes (digest : Digest) (file : String) (chart : Tree) : List InfraNode :=
  (nameIn chart).toList.map fun name =>
    .declared digest .helmChart file name [("chartPath", .text (Text.Path.parent file)),
      ("chartName", .text name), ("version", chart.field "version")]

/-- The name of a chart: what stands after the last slash of its path. -/
def nameOf (path : String) : Option String :=
  if path.isEmpty then none else (Text.split '/' path).getLast?

/-- The nodes of one release. -/
def releaseNodes (digest : Digest) (file : String) (release : Tree) : List InfraNode :=
  (nameIn release).toList.map fun name =>
    let written := release.field "chart"
    let chart := if written.isTruthy then written.written else ""
    .declared digest .helmfileRelease file name [("releaseName", .text name),
      ("namespace", release.field "namespace"), ("chartPath", .text chart), ("chartName", .ofText? (nameOf chart))]

/-- The nodes of a list of releases. -/
def releases (digest : Digest) (file : String) (list : Tree) : List InfraNode :=
  ((list.field "releases").list?.getD []).flatMap (releaseNodes digest file)

end DeployTrace.Chart
