/-
  DeployTrace/Detection/Direct.lean --- outputs put straight into a set flag.

  `--set key=$(terraform output -raw name)`: the value of a flag holds a call that prints an output.
  The values read from the command are searched first; the command's text is searched once more for
  flags whose value was cut differently.
-/
import DeployTrace.Detection.Candidate

set_option autoImplicit false

namespace DeployTrace

open Text Pattern Shell.Terraform

/-! ## Calls inside values -/

/-- A call that prints one output, with the flags that only change how it is printed. -/
def inlineCall : Pattern := outputCallWith [word "raw", word "json", word "no-color"]

/-- The two forms of a substitution inside a value; the output's name is part 1. -/
def substitutionForms : List Pattern := [substituted inlineCall, graveQuoted inlineCall]

/-- A set flag whose value starts with a substitution: part 2 is the key, part 3 the substitution, and
part 1 the output's name. -/
def inlineSetPattern : Pattern :=
  seq [word "--set", optional (word "-string"), oneOf [blanks1, word "="], mark 2 (solid1 ['=']),
    word "=", optional (char fun c => c == '\x22' || c == '\x27'), mark 3 (substituted inlineCall)]

/-- One output that a Helm step puts into a value. -/
structure DirectUse where
  key : String
  output : String
  /-- the value as the evidence quotes it -/
  value : String
  /-- the substitution itself -/
  expression : String
  channel : ValueChannel
  deriving DecidableEq, Repr

/-- The uses in one value of a step: of each form the first. -/
def usesInValue (h : HelmStep) (key value : String) : List DirectUse :=
  (substitutionForms.filterMap fun form => form.search value.toList).map fun found =>
    { key := key, output := String.ofList (found.part 1), value := value,
      expression := String.ofList found.whole, channel := h.channelFor key }

/-- The uses in the text of a step. -/
def usesInText (run : String) : List DirectUse :=
  (inlineSetPattern.findAll run.toList).map fun found =>
    let expression := String.ofList (found.part 3)
    { key := String.ofList (found.part 2), output := String.ofList (found.part 1), value := expression,
      expression := expression, channel := .setFlag }

/-- Uses without those that have key and output of an earlier one; `seen` came before. -/
def firstUses (seen : List (String × String)) : List DirectUse → List DirectUse
  | [] => []
  | u :: rest =>
    if seen.contains (u.key, u.output) then firstUses seen rest
    else u :: firstUses ((u.key, u.output) :: seen) rest

/-- The uses of a step, each key and output once. -/
def directUses (h : HelmStep) : List DirectUse :=
  firstUses [] ((h.setValues.flatMap fun (key, value) => usesInValue h key value) ++ usesInText h.run)

/-! ## The step an output comes from -/

/-- The distance of two steps of one job. -/
def stepDistance (m n : Nat) : Nat := ((m : Int) - (n : Int)).natAbs

/-- The best of some steps, the first of equals; `better` compares a step with the best so far. -/
def bestStep? (better : TerraformStep → TerraformStep → Bool) : List TerraformStep → Option TerraformStep
  | [] => none
  | first :: rest => some (rest.foldl (fun best s => if better s best then s else best) first)

/-- Of the steps of one job, the last one before a place, or else the nearest. -/
def nearestStep? (index : Nat) (steps : List TerraformStep) : Option TerraformStep :=
  let before := steps.filter (·.stepIndex < index)
  if before.isEmpty then
    bestStep? (fun s best => stepDistance s.stepIndex index < stepDistance best.stepIndex index) steps
  else bestStep? (fun s best => best.stepIndex < s.stepIndex) before

/-- The step an output comes from: in the Helm step's job, or else in the jobs it depends on in their
order, or else anywhere a step names or mentions it. -/
def outputStep? (ctx : Context) (h : HelmStep) (output : String) : Option TerraformStep :=
  let naming := ctx.terraformSteps.filter (·.outputs.contains output)
  match nearestStep? h.stepIndex (naming.filter (·.jobId == h.jobId)) with
  | some step => some step
  | none =>
    match (ctx.dependenciesOf h.jobId).findSome? fun job => naming.find? (·.jobId == job) with
    | some step => some step
    | none => ctx.terraformSteps.find? fun s => s.outputs.contains output || contains s.run output

/-! ## Candidates -/

/-- Evidence from where the two steps stand: their distance inside a job, or a dependency between
jobs. -/
def placeEvidence (ctx : Context) (h : HelmStep) (step : TerraformStep) : List Evidence :=
  if step.jobId != h.jobId then
    if ctx.dependsOn h.jobId step.jobId then [dependencyEvidence step.jobId h.jobId 85] else []
  else
    let distance := stepDistance h.stepIndex step.stepIndex
    [{ kind := .stepProximity,
       description := "Terraform and Helm steps are " ++ Nat.repr distance ++ " step(s) apart",
       strength := .int (max 50 (90 - 10 * (distance : Int))) }]

/-- The candidate for one use, if a step is found that its output can come from. -/
def directCandidate? (ctx : Context) (h : HelmStep) (use : DirectUse) : Option Candidate :=
  (outputStep? ctx h use.output).map fun step =>
    { pattern := .directOutput,
      source := {
        name := use.output, jobId := step.jobId, stepIndex := step.stepIndex, command := "output",
        stepId := .ofText? step.stepId, workingDir := step.workingDir, location := some ctx.location },
      target := ctx.target h use.key use.channel,
      evidence := [
        { kind := .explicitReference,
          description :=
            "Helm value '" ++ use.key ++ "' is set from terraform output '" ++ use.output ++ "'",
          strength := 95, location := some ctx.location,
          snippet := some ("--set " ++ use.key ++ "=" ++ use.value) },
        { kind := .expressionMatch, description := "Command substitution invokes terraform output",
          strength := 90, snippet := some use.expression }] ++ placeEvidence ctx h step }

/-- The candidates of all Helm steps. -/
def directCandidates (ctx : Context) : List Candidate :=
  ctx.helmSteps.flatMap fun h => (directUses h).filterMap (directCandidate? ctx h)

end DeployTrace
