/-
  DeployTrace/Options/Logging.lean --- how much is logged.
-/
import DeployTrace.Text.Casing

set_option autoImplicit false

namespace DeployTrace

/-- How important a message has to be in order to be logged. -/
inductive LogLevel where
  | everything
  | debug
  | info
  | warning
  | error
  | critical
  deriving DecidableEq, Repr, Inhabited

namespace LogLevel

/-- The weight of a level. -/
def weight : LogLevel → Nat
  | everything => 0
  | debug => 10
  | info => 20
  | warning => 30
  | error => 40
  | critical => 50

/-- The spellings of the levels, in capital letters. -/
def spellings : List (String × LogLevel) :=
  [("NOTSET", everything), ("DEBUG", debug), ("INFO", info), ("WARNING", warning), ("WARN", warning),
    ("ERROR", error), ("CRITICAL", critical), ("FATAL", critical)]

/-- The level with a spelling in any case; a spelling of no level means warnings. -/
def ofName (name : String) : LogLevel := (spellings.lookup (Text.upper name)).getD warning

/-- The level to log at: the one asked for, or else the environment's, or else warnings.  An empty text
asks for none. -/
def chosen (asked environment : Option String) : LogLevel :=
  match asked.filter fun s => !s.isEmpty with
  | some name => ofName name
  | none => ofName (environment.getD "")

end LogLevel

end DeployTrace
