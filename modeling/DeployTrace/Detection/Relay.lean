/-
  DeployTrace/Detection/Relay.lean --- outputs relayed through environment variables.

  WHAT THIS FILE IS FOR.  A variable carries an output when a Terraform step assigns it from a call,
  writes it to the environment of later steps, or when an environment table of a job or a step sets it
  from a call or from another job's output.  A Helm value that refers to the variable is then fed by
  that output.

  WHICH BINDING COUNTS.  The variables of all jobs are in one map, and the first binding of a name
  stays: first those of the Terraform steps in their order, then those of the environment tables.
-/
import DeployTrace.Detection.Candidate

set_option autoImplicit false

namespace DeployTrace

open Text Pattern Shell Shell.Terraform

/-! ## Patterns -/

/-- A variable's name. -/
def variableName : Pattern := both (char isIdentifierStart) (span true isWord)

/-- A single or double quote, or none. -/
def optionalQuote : Pattern := optional (char fun c => c == '\x22' || c == '\x27')

/-- The start of a command substitution in either form. -/
def substitutionStart : Pattern := oneOf [word "$(", char (· == graveAccent)]

/-- A call that prints one output, with the flags that only change how it is printed. -/
def assignedCall : Pattern := outputCallWith [word "raw", word "json", word "no-color"]

/-- The two forms of an assignment from a call: part 2 is the variable, part 1 the output. -/
def assignmentForms : List Pattern :=
  [seq [word "export", blanks1, mark 2 variableName, word "=", optionalQuote, substitutionStart, blanks,
      assignedCall],
    seq [oneOf [lineStart, char fun c => isBlank c || c == ';' || c == '&' || c == '('],
      mark 2 variableName, word "=", optionalQuote, substitutionStart, blanks, assignedCall]]

/-- A variable written to the environment of later steps: part 1 is its name, part 2 its value. -/
def environmentWrite : Pattern :=
  seq [word "echo", blanks1, optionalQuote, mark 1 variableName, word "=", mark 2 shortLine,
    optionalQuote, blanks, word ">>", blanks, optionalQuote, word "$", optional (word "\x7b"),
    word "GITHUB_ENV", optional (word "\x7d")]

/-- An output of another job: part 1 is the job, part 2 the output. -/
def neededOutput : Pattern :=
  seq [word "needs.", mark 1 (span1 isNamePart), word ".outputs.", mark 2 (span1 isNamePart)]

/-- A shell variable; its name is part 1. -/
def shellVariable : Pattern :=
  seq [word "$", optional (word "\x7b"), mark 1 variableName, optional (word "\x7d")]

/-- An environment variable in an expression; its name is part 1. -/
def expressionVariable : Pattern :=
  seq [word "$\x7b\x7b", blanks, word "env.", mark 1 variableName, blanks, word "\x7d\x7d"]

/-- An expression. -/
def expression : Pattern := seq [word "$\x7b\x7b", shortLine, word "\x7d\x7d"]

/-! ## Bindings -/

/-- A variable that carries an output. -/
structure EnvBinding where
  variableName : String
  output : String
  jobId : String
  stepIndex : Nat
  /-- the step's own id, whatever the workflow holds there -/
  stepId : Tree := .null
  workingDir : Option String := none
  snippet : String := ""
  deriving Repr

/-- Bindings by variable. -/
abbrev EnvBindings : Type := Entries EnvBinding

/-- The bindings with one more, unless its variable is bound already. -/
def bindFirst (bindings : EnvBindings) (b : EnvBinding) : EnvBindings :=
  if bindings.has b.variableName then bindings else bindings ++ [(b.variableName, b)]

/-- A binding made by a Terraform step. -/
def TerraformStep.binding (s : TerraformStep) (variableName output : String) (snippet : Chars) :
    EnvBinding :=
  { variableName := variableName, output := output, jobId := s.jobId, stepIndex := s.stepIndex,
    stepId := .ofText? s.stepId, workingDir := s.workingDir,
    snippet := String.ofList (stripChars snippet) }

/-- The bindings that a Terraform step's assignments make. -/
def assignmentBindings (s : TerraformStep) : List EnvBinding :=
  assignmentForms.flatMap fun form => (form.findAll s.run.toList).map fun found =>
    s.binding (String.ofList (found.part 2)) (String.ofList (found.part 1)) found.whole

/-- Whether a value refers to a shell variable. -/
def refersTo (value : Chars) (name : String) : Bool :=
  (seq [word "$", optional (word "\x7b"), word name, wordEdge]).occursIn value

/-- The output that a value written to the environment carries: the first one it calls, or the first of
the step's outputs it mentions, or that of the first bound variable it refers to. -/
def writtenOutput? (bindings : EnvBindings) (s : TerraformStep) (value : Chars) : Option String :=
  match outputNames value with
  | output :: _ => some output
  | [] =>
    match s.outputs.find? fun output => hasPart output.toList value with
    | some output => some output
    | none => (bindings.find? fun (name, _) => refersTo value name).map (·.2.output)

/-- The bindings after one write to the environment. -/
def bindWrite (s : TerraformStep) (bindings : EnvBindings) (found : Match) : EnvBindings :=
  match writtenOutput? bindings s (found.part 2) with
  | some output => bindFirst bindings (s.binding (String.ofList (found.part 1)) output found.whole)
  | none => bindings

/-- The bindings after a Terraform step: its assignments, and then its writes to the environment. -/
def bindStep (bindings : EnvBindings) (s : TerraformStep) : EnvBindings :=
  (environmentWrite.findAll s.run.toList).foldl (bindWrite s)
    ((assignmentBindings s).foldl bindFirst bindings)

/-- The environment tables of a job with the index and id of the step they belong to; the job's own
counts as that of its first step. -/
def envTables (job : Table) : List (Nat × Tree × Table) :=
  (job.field "env").table?.toList.map (fun env => (0, .null, env)) ++
    (jobSteps (.table job)).zipIdx.filterMap fun (step, index) =>
      (step.field "env").table?.map fun env => (index, step.field "id", env)

/-- The step that stands for an output of a job: the first that names it, or else the first. -/
def producerOf? (ctx : Context) (job output : String) : Option TerraformStep :=
  let steps := ctx.terraformSteps.filter (·.jobId == job)
  match steps.find? (·.outputs.contains output) with
  | some step => some step
  | none => steps.head?

/-- The binding that an entry of an environment table makes. -/
def envEntryBinding? (ctx : Context) (jobId : String) (index : Nat) (stepId : Tree)
    (entry : Scalar × Tree) : Option EnvBinding :=
  let name := entry.1.written
  let value := entry.2.written
  let snippet := name ++ ": " ++ value
  match outputNames value.toList with
  | output :: _ =>
    some { variableName := name, output := output, jobId := jobId, stepIndex := index, stepId := stepId,
           snippet := snippet }
  | [] =>
    match neededOutput.search value.toList with
    | some found =>
      let output := String.ofList (found.part 2)
      (producerOf? ctx (String.ofList (found.part 1)) output).map fun step =>
        { variableName := name, output := output, jobId := step.jobId, stepIndex := step.stepIndex,
          stepId := .ofText? step.stepId, workingDir := step.workingDir, snippet := snippet }
    | none => none

/-- The bindings that the environment tables of a job make, in order. -/
def envTableBindings (ctx : Context) (jobId : String) (job : Table) : List EnvBinding :=
  (envTables job).flatMap fun (index, stepId, env) =>
    env.filterMap (envEntryBinding? ctx jobId index stepId)

/-- The variables that carry outputs. -/
def envBindings (ctx : Context) : EnvBindings :=
  (ctx.jobs.flatMap fun (id, job) => envTableBindings ctx id job).foldl bindFirst
    (ctx.terraformSteps.foldl bindStep [])

/-! ## References to variables -/

/-- Starts of names of variables that never carry a value of the application. -/
def deniedStarts : List String := ["GITHUB", "HOME", "PATH", "PWD", "USER", "RUNNER_", "CI_"]

/-- Whether a variable never carries a value of the application. -/
def isDenied (name : String) : Bool := deniedStarts.any (startsWith (upper name))

/-- The variables a value refers to: those in expressions, and then, expressions left out, those of the
shell that are new. -/
def referencedVariables (value : String) : List String :=
  let inExpressions := (expressionVariable.findAll value.toList).map fun m => String.ofList (m.part 1)
  let plain := expression.replaceAll [] value.toList
  let inShell := (shellVariable.findAll plain).map fun m => String.ofList (m.part 1)
  (addNew inExpressions inShell).filter fun name => !isDenied name

/-! ## Candidates -/

/-- The candidate for a value that refers to a bound variable. -/
def relayCandidate (ctx : Context) (h : HelmStep) (key value name : String) (b : EnvBinding) :
    Candidate :=
  { pattern := .outputToEnv,
    source := {
      name := b.output, jobId := b.jobId, stepIndex := b.stepIndex, command := "output",
      stepId := b.stepId, workingDir := b.workingDir, location := some ctx.location },
    target := ctx.target h key .envSubstitution,
    evidence := [
      { kind := .envVariable, description := "$" ++ name ++ " carries terraform output '" ++ b.output ++ "'",
        strength := 80, location := some ctx.location, snippet := some b.snippet },
      { kind := .expressionMatch, description := "Helm value '" ++ key ++ "' references $" ++ name,
        strength := 75, snippet := some ("--set " ++ key ++ "=" ++ value) }] ++
      (if b.jobId != h.jobId && ctx.dependsOn h.jobId b.jobId then
        [dependencyEvidence b.jobId h.jobId 70] else []) }

/-- The candidates of all Helm steps: for every value the first variable in it that is bound. -/
def relayCandidates (ctx : Context) : List Candidate :=
  let bindings := envBindings ctx
  ctx.helmSteps.flatMap fun h => h.setValues.filterMap fun (key, value) =>
    (referencedVariables value).findSome? fun name =>
      (bindings.get? name).map (relayCandidate ctx h key value name)

end DeployTrace
