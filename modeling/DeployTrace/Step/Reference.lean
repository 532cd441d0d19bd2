/-
  DeployTrace/Step/Reference.lean --- references to variables.

  A reference names a scope, maybe an owner, and a name: `needs.job.outputs.x`, `env.X`, `steps.x`.  It
  may stand in an expression.  Everything else is a reference whose scope is not known and whose name is
  the whole text.
-/
import DeployTrace.Text.Pattern

set_option autoImplicit false

namespace DeployTrace

open Text Pattern

/-- The scope in which a variable is looked up. -/
inductive VariableScope where
  | needs
  | env
  | steps
  | other
  deriving DecidableEq, Repr, Inhabited

/-- The spelling of a scope. -/
def VariableScope.name : VariableScope → String
  | needs => "needs"
  | env => "env"
  | steps => "steps"
  | other => "other"

/-- The scope with a spelling; any other spelling is a scope that is not known. -/
def VariableScope.ofName (s : String) : VariableScope :=
  if s == "needs" then needs else if s == "env" then env else if s == "steps" then steps else other

/-- A reference to a variable. -/
structure VariableReference where
  scope : VariableScope
  name : String
  owner : Option String
  deriving DecidableEq, Repr

/-- A scope (part 1), an owner (part 2) if there is one, and a name (part 3). -/
def referencePattern : Pattern :=
  seq [mark 1 (oneWordOf ["needs", "env", "steps"]), word ".",
    optional (seq [mark 2 (span1 isNamePart), word ".outputs."]), mark 3 (span1 isNamePart),
    textEnd]

/-- The text of a reference: without blanks around it, and taken out of the expression it stands in. -/
def referenceText (text : Chars) : Chars :=
  let bare := stripChars text
  if "$\x7b\x7b".toList.isPrefixOf bare && "\x7d\x7d".toList.isSuffixOf bare then
    stripChars ((bare.drop 3).take (bare.length - 5))
  else bare

/-- The reference a text stands for. -/
def VariableReference.read (text : String) : VariableReference :=
  let bare := referenceText text.toList
  match referencePattern.matchStart bare with
  | some found =>
    { scope := .ofName (String.ofList (found.part 1)), name := String.ofList (found.part 3),
      owner := (found.part? 2).map String.ofList }
  | none => { scope := .other, name := String.ofList bare, owner := none }

end DeployTrace
