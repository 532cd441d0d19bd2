/-
  DeployTrace/Detection/File.lean --- outputs relayed through a file.

  `terraform output -json > f` in one step, and `helm -f <(jq … f)` in another: the output travels in a
  file.  Where the Helm command reads the very file, the value's path is taken from the expression that
  picks it out; where a values file merely looks related, the flow is a weaker one.
-/
import DeployTrace.Detection.Candidate
import DeployTrace.Text.Path

set_option autoImplicit false

namespace DeployTrace

open Text Pattern Shell Shell.Terraform

/-! ## Names of files -/

/-- A path without one leading `./` after the other. -/
def dropHere : Chars → Chars
  | '.' :: '/' :: rest => dropHere rest
  | path => path

/-- The spelling under which files are compared: without quotes, with slashes, without a leading `./`,
and in small letters. -/
def comparableFile (path : String) : String :=
  let bare := stripWhile (fun c => c == '\x27' || c == '\x22') path.toList
  lower (String.ofList (dropHere (bare.map fun c => if c == '\\' then '/' else c)))

/-- Whether two paths mean the same file, when one may leave out directories in front. -/
def filesMatch (a b : String) : Bool :=
  let x := comparableFile a
  let y := comparableFile b
  x == y || endsWith x ("/" ++ y) || endsWith y ("/" ++ x)

/-- Pairs of words of which one in each name makes two names related. -/
def relatedWords : List (String × String) :=
  [("terraform", "values"), ("tf", "helm"), ("output", "values")]

/-- Whether two files look related: one name is in the other, or both are of a related kind. -/
def filesRelated (a b : String) : Bool :=
  let x := comparableFile a
  let y := comparableFile b
  let s := Path.stem x
  let t := Path.stem y
  contains y x || contains x y ||
    (!s.isEmpty && !t.isEmpty && (contains t s || contains s t)) ||
    relatedWords.any fun (v, w) => (contains s v && contains t w) || (contains s w && contains t v)

/-! ## Files that Terraform writes -/

/-- A call that prints outputs in JSON, with other flags before. -/
def jsonCall : Pattern :=
  seq [callStart, word "output", blanks1, many false (seq [word "-", span1 isNamePart, blanks1]),
    word "-json", wordEdge]

/-- The name of a file, which ends at a blank or at the end of the command. -/
def fileWord : Pattern := mark 1 (solid1 ['|', ';', '&'])

/-- The two ways to write JSON outputs to a file: redirected, or through `tee`. -/
def jsonFileForms : List Pattern :=
  [seq [jsonCall, span false (fun c => c != '|' && c != '>' && c != '\n'), word ">",
      optional (word ">"), blanks, fileWord],
    seq [jsonCall, span true (fun c => c != '|' && c != '\n'), word "|", blanks, word "tee", blanks1,
      optional (seq [word "-a", blanks1]), fileWord]]

/-- The files to which a step writes outputs in JSON. -/
def jsonFiles (run : String) : List String :=
  distinct (jsonFileForms.flatMap fun form =>
    (form.findAll run.toList).map fun found => String.ofList (found.part 1))

/-! ## Files that Helm reads through a query -/

/-- A query in one kind of quotes (part 3) on a file (part 4), up to the closing parenthesis. -/
def quotedQuery (quote : Char) : Pattern :=
  seq [char (· == quote), mark 3 shortLine, char (· == quote), blanks1,
    mark 4 (solid1 [')']), blanks, word ")"]

/-- A values file that is the result of a query; part 1 is the tool. -/
def queriedFile : Pattern :=
  seq [oneWordOf ["-f", "--values"], blanks1, word "<(", blanks, mark 1 (oneWordOf ["jq", "yq"]), blanks1,
    many true (seq [word "-", span1 isWord, blanks1]),
    oneOf [quotedQuery '\x27', quotedQuery '\x22']]

/-- A key as queries write it. -/
def queryKey : Pattern :=
  mark 1 (both (char isIdentifierStart) (span true isNamePart))

/-- The first key of an object that a query builds. -/
def objectKey : Pattern :=
  seq [word "\x7b", blanks, optional (word "\x22"), queryKey, optional (word "\x22"), blanks, word ":"]

/-- The first key of a path that a query follows. -/
def pathKey : Pattern := seq [textStart, word ".", queryKey]

/-- The value that a query is for: the first key of the object it builds, or else of the path it
follows. -/
def queryTarget (query : String) : String :=
  match objectKey.search query.toList with
  | some found => String.ofList (found.part 1)
  | none =>
    match pathKey.search (stripChars query.toList) with
    | some found => String.ofList (found.part 1)
    | none => "values"

/-- A query on a file in a Helm command. -/
structure FileQuery where
  tool : String
  query : String
  file : String
  whole : String
  deriving DecidableEq, Repr

/-- The queries in a Helm command. -/
def fileQueries (run : String) : List FileQuery :=
  (queriedFile.findAll run.toList).map fun found =>
    { tool := String.ofList (found.part 1), query := String.ofList (found.part 3),
      file := String.ofList (found.part 4), whole := String.ofList found.whole }

/-! ## Candidates -/

/-- The source of the outputs a Terraform step writes in JSON. -/
def jsonSource (ctx : Context) (step : TerraformStep) : OutputSource :=
  { name := "json_outputs", jobId := step.jobId, stepIndex := step.stepIndex, command := "output",
    stepId := .ofText? step.stepId, workingDir := step.workingDir, outputType := some "json",
    location := some ctx.location }

/-- The candidate for a query on the very file. -/
def queryCandidate (ctx : Context) (h : HelmStep) (step : TerraformStep) (q : FileQuery) : Candidate :=
  { pattern := .outputToFile, source := jsonSource ctx step,
    target := ctx.target h (queryTarget q.query) .valuesFile,
    evidence := [
      { kind := .filePathMatch,
        description := "Helm reads '" ++ q.file ++ "' written by terraform output -json",
        strength := 85, location := some ctx.location, snippet := some q.whole },
      { kind := .expressionMatch, description := "Values are extracted with " ++ q.tool,
        strength := 80, snippet := some (q.tool ++ " '" ++ q.query ++ "' " ++ q.file) }] ++
      (if step.jobId != h.jobId && ctx.dependsOn h.jobId step.jobId then
        [dependencyEvidence step.jobId h.jobId 75] else []) }

/-- The candidate for a values file that looks related. -/
def relatedCandidate (ctx : Context) (h : HelmStep) (step : TerraformStep) (file valuesFile : String) :
    Candidate :=
  { pattern := .outputToFile, source := jsonSource ctx step,
    target := ctx.target h "values" .valuesFile,
    evidence := [
      { kind := .filePathMatch,
        description := "Values file '" ++ valuesFile ++ "' looks related to '" ++ file ++ "'",
        strength := 60, snippet := some ("-f " ++ valuesFile) }] }

/-- The candidates for one file and one Helm step: every query on the file, or else the first values
file that looks related. -/
def fileCandidatesFor (ctx : Context) (h : HelmStep) (step : TerraformStep) (file : String) :
    List Candidate :=
  match (fileQueries h.run).filter fun q => filesMatch file q.file with
  | [] => ((h.valuesFiles.find? (filesRelated file)).map (relatedCandidate ctx h step file)).toList
  | queries => queries.map (queryCandidate ctx h step)

/-- The files that Terraform steps write, each with its step. -/
def writtenFiles (ctx : Context) : List (TerraformStep × String) :=
  ctx.terraformSteps.flatMap fun step => (jsonFiles step.run).map fun file => (step, file)

/-- The candidates of all Helm steps. -/
def fileCandidates (ctx : Context) : List Candidate :=
  let written := writtenFiles ctx
  ctx.helmSteps.flatMap fun h => written.flatMap fun (step, file) => fileCandidatesFor ctx h step file

end DeployTrace
