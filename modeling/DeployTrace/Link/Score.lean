/-
  DeployTrace/Link/Score.lean --- how well a node fits an operation.

  WHAT THIS FILE IS FOR.  A job's operation may act on a node.  Several rules give a score with a reason:
  the same working directory, the same release, an alike name.  The best score counts, and of equal
  scores the one that was found first.  The weak rules, nearness of files and likeness of names, are only
  asked when no better one has reached fifty.

  FACTS THAT ARE NO TEXT.  The facts about a node come from outside.  A fact that is needed and is
  present but no text is a fault; one that is absent, null or empty just does not apply.
-/
import DeployTrace.Infra.Node
import DeployTrace.Pipeline.Graph
import DeployTrace.Link.Similarity
import DeployTrace.Options.Linker

set_option autoImplicit false

namespace DeployTrace

open Text

/-! ## Reasons -/

/-- Why a node fits. -/
inductive MatchReason where
  | workingDir
  | outputReference
  | releaseName
  | chartName
  | namespaceName
  | directoryProximity
  | nameSimilarity
  deriving DecidableEq, Repr, Inhabited

namespace MatchReason

/-- All reasons. -/
def all : List MatchReason :=
  [workingDir, outputReference, releaseName, chartName, namespaceName, directoryProximity,
    nameSimilarity]

/-- The spelling of a reason. -/
def name : MatchReason → String
  | workingDir => "working_dir_match"
  | outputReference => "output_reference"
  | releaseName => "release_name_match"
  | chartName => "chart_name_match"
  | namespaceName => "namespace_match"
  | directoryProximity => "directory_proximity"
  | nameSimilarity => "name_similarity"

/-- The reason with a spelling. -/
def ofName? (s : String) : Option MatchReason := all.find? fun r => r.name == s

end MatchReason

/-! ## Scores -/

/-- A score with its reason. -/
structure LinkScore where
  confidence : Int
  reason : MatchReason
  deriving DecidableEq, Repr

/-- The better of the best score so far and another one. -/
def considered (best : Option LinkScore) (score : LinkScore) : Option LinkScore :=
  match best with
  | none => if 0 < score.confidence then some score else none
  | some b => if b.confidence < score.confidence then some score else best

/-- The best score so far and another one, if that rule applies. -/
def consideredIf (best : Option LinkScore) (applies : Bool) (confidence : Int) (reason : MatchReason) :
    Option LinkScore :=
  if applies then considered best ⟨confidence, reason⟩ else best

/-- Whether the best score so far leaves room for the weak rules. -/
def isWeak (best : Option LinkScore) : Bool :=
  match best with
  | none => true
  | some b => b.confidence < 50

/-- A fact that is used as a text: nothing when it does not count as present. -/
def textFact (fact : Tree) : Except LinkFault (Option String) :=
  if !fact.isTruthy then .ok none
  else match fact with
    | .text s => .ok (some s)
    | other => .error (.factKind other.kindName)

/-- A fact that is only asked for when there is something to compare it with. -/
def textFactFor (needed : Bool) (fact : Tree) : Except LinkFault (Option String) :=
  if needed then textFact fact else .ok none

/-- A text, unless it is empty. -/
def nonempty? (text : Option String) : Option String := text.filter fun s => !s.isEmpty

/-! ## Weak rules -/

/-- The words of a text, cut at blanks and slashes. -/
def nameWords (text : String) : List String :=
  (text.toList.splitOnP fun c => isBlank c || c == '/').map String.ofList

/-- The texts whose likeness to a node's name counts: the job's names as a whole, and the words of the
operation.  Texts of less than three characters are too short to tell. -/
def comparedNames (job : JobNode) (o : Operation) : List String :=
  ([job.name, job.jobName] ++ nameWords (o.workingDir.getD "") ++ nameWords o.text).filter
    fun name => 3 ≤ name.length

/-- The greatest likeness of a node's name to the names around an operation. -/
def bestNameSimilarity (job : JobNode) (o : Operation) (n : InfraNode) : Int :=
  ((comparedNames job o).map fun name => DeployTrace.nameSimilarity name n.name).foldl max 0

/-- What likeness of names is worth: seven tenths of it, rounded. -/
def nameScore (similarity : Int) : Int :=
  ((Number.int similarity).mul (.fraction (.ofRat (7 / 10)))).round

/-- The best score after asking whether the files of job and node are near each other, which is worth
`near`. -/
def consideringNearness (near : Int) (job : JobNode) (n : InfraNode) (best : Option LinkScore) :
    Option LinkScore :=
  let related := pathsRelated (plainDirectory job.filePath) (plainDirectory n.filePath)
  consideredIf best (isWeak best && related) near .directoryProximity

/-- The best score after asking for likeness of names. -/
def consideringNames (job : JobNode) (o : Operation) (n : InfraNode) (options : LinkerOptions)
    (best : Option LinkScore) : Option LinkScore :=
  if isWeak best && options.nameSimilarity.isTruthy then
    let similarity := bestNameSimilarity job o n
    consideredIf best (60 ≤ similarity) (nameScore similarity) .nameSimilarity
  else best

/-! ## Terraform -/

/-- The directory of the module a node belongs to: a fact, or else where its file is. -/
def modulePath (n : InfraNode) : Tree := (n.fact "modulePath").orElse (.text (plainDirectory n.filePath))

/-- The score for the directory that an operation works in. -/
def directoryScore (similarity : Int) (options : LinkerOptions) : Option LinkScore :=
  if 80 ≤ similarity then considered none ⟨similarity, .workingDir⟩
  else if 50 ≤ similarity && options.fuzzyPaths.isTruthy then
    considered none ⟨similarity, .directoryProximity⟩
  else none

/-- Whether an operation names the output that a node is. -/
def namesOutput (o : Operation) (output : String) : Bool :=
  o.outputs.any fun name => plainName name == plainName output

/-- How well a node fits a Terraform operation. -/
def terraformScore (job : JobNode) (o : Operation) (n : InfraNode) (options : LinkerOptions) :
    Except LinkFault (Option LinkScore) := do
  let workingDir := nonempty? o.workingDir
  let home ← textFactFor workingDir.isSome (modulePath n)
  let best := match workingDir, home with
    | some dir, some home => directoryScore (pathSimilarity dir home) options
    | _, _ => none
  let best := consideringNearness 60 job n best
  let output ← textFactFor (!o.outputs.isEmpty && n.kind == .terraformOutput)
    ((n.fact "outputName").orElse (.text n.name))
  let named := !o.outputs.isEmpty && n.kind == .terraformOutput && namesOutput o (output.getD "")
  let best := consideredIf best named 90 .outputReference
  return consideringNames job o n options best

/-! ## Helm -/

/-- The positional arguments of the first call in a text that names a release. -/
def releaseArguments (text : String) : List String :=
  Shell.Helm.positionals Shell.Helm.releaseVerbs (Shell.joinLines text.toList)

/-- The release that a text names. -/
def releaseName? (text : String) : Option String := (releaseArguments text)[0]?

/-- The chart that a text refers to. -/
def chartReference? (text : String) : Option String := (releaseArguments text)[1]?

/-- Whether a chart's name stands in a reference, without regard to case. -/
def refersToChart (reference chart : String) : Bool := contains (lower reference) (lower chart)

/-- How well a node fits a Helm operation. -/
def helmScore (job : JobNode) (o : Operation) (n : InfraNode) (options : LinkerOptions) :
    Except LinkFault (Option LinkScore) := do
  let reference := nonempty? (chartReference? o.text)
  let release := nonempty? (releaseName? o.text)
  let places := (nonempty? o.workingDir).toList ++ reference.toList
  let chartPath ← textFactFor (!places.isEmpty) (n.fact "chartPath")
  let atPath := match chartPath with
    | some path => places.any fun place => 80 ≤ pathSimilarity place path
    | none => false
  let best := consideredIf none atPath 80 .chartName
  let nodeRelease ← textFactFor release.isSome (n.fact "releaseName")
  let sameRelease := match release, nodeRelease with
    | some r, some s => plainName r == plainName s
    | _, _ => false
  let best := consideredIf best sameRelease 95 .releaseName
  let chart ← textFactFor reference.isSome (n.fact "chartName")
  let sameChart := match reference, chart with
    | some r, some c => refersToChart r c
    | _, _ => false
  let best := consideredIf best sameChart 85 .chartName
  let named := match nonempty? (Shell.Helm.namespace? o.text.toList) with
    | some name => some name
    | none => nonempty? job.environment
  let sameNamespace := match named, n.fact "namespace" with
    | some a, .text b => a == b
    | _, _ => false
  let best := consideredIf best sameNamespace 75 .namespaceName
  return consideringNames job o n options (consideringNearness 55 job n best)

end DeployTrace
