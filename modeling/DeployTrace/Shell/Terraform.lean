/-
  DeployTrace/Shell/Terraform.lean --- Terraform calls in shell text.

  A call is `terraform`, maybe a `-chdir` option, and a subcommand.  Calls of the subcommand `output`
  name the output they print; they are recognised bare, as the value of an assignment, and between
  grave accents.
-/
import DeployTrace.Shell.Word
import DeployTrace.Entries

set_option autoImplicit false

namespace DeployTrace.Shell.Terraform

open Text Pattern

/-! ## Patterns -/

/-- The one global option that may stand before a subcommand. -/
def globalOption : Pattern := optional (seq [word "-chdir=", solid1 [], blanks1])

/-- An ASCII identifier. -/
def identifier : Pattern := both (char isIdentifierStart) (span true isIdentifierChar)

/-- The start of a call, up to its subcommand. -/
def callStart : Pattern := seq [word "terraform", blanks1, globalOption]

/-- Flags of `output` out of a choice, each followed by blanks. -/
def flagsOf (flags : List Pattern) : Pattern := many true (seq [word "-", oneOf flags, blanks1])

/-- A call that prints one output, whose name is part 1. -/
def outputCallWith (flags : List Pattern) : Pattern :=
  seq [callStart, word "output", blanks1, flagsOf flags, mark 1 identifier]

/-- A call that prints one output, with any of the flags that change how it is printed or from which
state. -/
def outputCall : Pattern :=
  outputCallWith [word "raw", word "json", word "no-color", both (word "state=") (solid1 [])]

/-- A call as a word's command substitution. -/
def substituted (call : Pattern) : Pattern := seq [word "$(", blanks, call, blanks, word ")"]

/-- A call between grave accents. -/
def graveQuoted (call : Pattern) : Pattern :=
  seq [char (· == graveAccent), blanks, call, blanks, char (· == graveAccent)]

/-- The three forms in which an output is named. -/
def outputForms : List Pattern :=
  [outputCall, seq [span1 isWord, word "=", substituted outputCall], graveQuoted outputCall]

/-! ## Reading -/

/-- The outputs named in a text, without repetition: those of each form in order, one form after the
other. -/
def outputNames (text : Chars) : List String :=
  distinct (outputForms.flatMap fun form =>
    (form.findAll text).map fun found => String.ofList (found.part 1))

/-- The subcommands that are told apart, in the order in which they are looked for. -/
def verbs : List String := ["output", "apply", "plan", "init", "show", "destroy"]

/-- A call with a subcommand. -/
def verbCall (verb : String) : Pattern := seq [callStart, word verb, wordEdge]

/-- The first of the subcommands that a text calls. -/
def command (text : Chars) : String :=
  (verbs.find? fun verb => (verbCall verb).occursIn text).getD "other"

/-- A Terraform call as a word of its own. -/
def invocation : Pattern := seq [wordEdge, word "terraform", blanks1]

/-! ## Values that look like an output -/

/-- Marks of a value that Terraform produced: a call, or an output of another job or step. -/
def valueHints : List Pattern :=
  [seq [word "terraform", blanks1, word "output"],
    seq [word "needs.", span1 isNamePart, word ".outputs."],
    seq [word "steps.", span1 isNamePart, word ".outputs."]]

/-- Whether a value looks as if Terraform produced it. -/
def looksProduced (value : String) : Bool := valueHints.any (·.occursIn value.toList)

end DeployTrace.Shell.Terraform
