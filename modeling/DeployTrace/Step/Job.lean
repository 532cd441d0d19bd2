/-
  DeployTrace/Step/Job.lean --- jobs, their steps and what the steps run.

  A job is any data.  Its steps are the tables in its list of steps; a job that has a script instead
  has one step for every text in the script, numbered by its place there.
-/
import DeployTrace.Tree.Written
import DeployTrace.Entries
import DeployTrace.Shell.Terraform
import DeployTrace.Shell.Helm

set_option autoImplicit false

namespace DeployTrace

open Text

/-! ## Steps -/

/-- The step that a line of a script stands for. -/
def scriptStep (index : Nat) (line : String) : Table :=
  [(.text "run", .text line), (.text "id", .text ("step-" ++ Nat.repr index))]

/-- The steps of a script from a place on. -/
def scriptSteps : Nat → List Tree → List Table
  | _, [] => []
  | index, .text line :: rest => scriptStep index line :: scriptSteps (index + 1) rest
  | index, _ :: rest => scriptSteps (index + 1) rest

/-- The steps of a job in order. -/
def jobSteps (job : Tree) : List Table :=
  match job.field "steps" with
  | .list steps => steps.filterMap Tree.table?
  | _ =>
    match job.field "script" with
    | .text line => scriptSteps 0 [.text line]
    | .list lines => scriptSteps 0 lines
    | _ => []

/-- What a step runs, with continuation lines joined; empty when it runs nothing. -/
def runText (step : Table) : String :=
  match step.text? "run" with
  | some run => String.ofList (Shell.joinLines run.toList)
  | none => ""

/-- What a step runs, as it is written. -/
def rawRunText (step : Table) : String := (step.text? "run").getD ""

/-- The action a step uses; empty when it uses none. -/
def usesText (step : Table) : String := (step.text? "uses").getD ""

/-- Environment variables of a job or a step: every entry but those without a value, in written form. -/
def envEntries (env : Tree) : Entries String :=
  match env with
  | .table entries =>
    Entries.ofList ((entries.filter fun entry => match entry.2 with
      | .null => false
      | _ => true).map fun entry => (entry.1.written, entry.2.written))
  | _ => []

/-! ## Tools a step invokes -/

/-- Whether a step mentions Terraform in what it runs or uses. -/
def mentionsTerraform (step : Tree) : Bool :=
  match step with
  | .table step => contains (runText step) "terraform" || contains (usesText step) "terraform"
  | _ => false

/-- Whether a step invokes Helm or uses an action that is named after it. -/
def mentionsHelm (step : Tree) : Bool :=
  match step with
  | .table step =>
    Shell.Helm.invocation.occursIn (runText step).toList || contains (usesText step) "helm"
  | _ => false

/-! ## Working directories -/

open Pattern in
/-- The places in shell text that name a working directory, in the order in which they count. -/
def workingDirPatterns : List Pattern :=
  [both (word "-chdir=") (mark 1 (solid1 [';', '&', '|'])),
    seq [oneOf [lineStart, word "&&", word ";"], blanks, word "cd", blanks1,
      mark 1 (solid1 [';', '&', '|'])]]

/-- The directory a step works in: its own setting, the one its text names, or its job's default. -/
def workingDir? (step : Table) (job : Tree) (text : String) : Option String :=
  match step.text? "working-directory" with
  | some dir => some dir
  | none =>
    match workingDirPatterns.findSome? fun p => p.search text.toList with
    | some found => some (String.ofList (found.part 1))
    | none => ((job.field "defaults").field "run").fieldText? "working-directory"

end DeployTrace
