/-
  DeployTrace/Command/Request.lean --- what the arguments of a command ask for.

  WHAT THIS FILE IS FOR.  Arguments are one workflow and options.  Options have long names and some have
  letters; letters may share one argument; the value of an option follows it, after an equals sign or as
  the next argument, whatever that looks like.  After two dashes there are no options.  Of an option that
  is given twice the last value counts.
-/
import DeployTrace.Entries
import DeployTrace.Number.Reading
import DeployTrace.Text.Cut

set_option autoImplicit false

namespace DeployTrace.Command

open Text

/-! ## Arguments -/

/-- Arguments, told apart but not yet checked. -/
structure Arguments where
  positional : List String := []
  values : Entries String := []
  flags : List String := []
  deriving DecidableEq, Repr

/-- The options that take a value. -/
def valueOptions : List String := ["--infra", "--config", "--min-confidence", "--max-flows"]

/-- The options that take none. -/
def flagOptions : List String := ["--verbose", "--json", "--quiet", "--debug", "--help"]

/-- The letters of options. -/
def letters : List (Char × String) := [('v', "--verbose"), ('j', "--json"), ('q', "--quiet")]

/-- What one argument is. -/
inductive Argument where
  | positional (text : String)
  /-- an option with its value, or without it if the value is the next argument -/
  | valued (option : String) (value : Option String)
  | flags (options : List String)
  deriving DecidableEq, Repr

/-- The name of an option and the value after an equals sign. -/
def cutOption (text : String) : String × Option String :=
  match cutAt '=' text.toList with
  | some (name, value) => (String.ofList name, some (String.ofList value))
  | none => (text, none)

/-- What an argument is; nothing for an option that is not known. -/
def Argument.read? (text : String) : Option Argument :=
  let (name, value) := cutOption text
  match text.toList with
  | '-' :: c :: rest =>
    if valueOptions.contains name then some (.valued name value)
    else if flagOptions.contains name then (if value.isNone then some (.flags [name]) else none)
    else if c == '-' then none
    else ((c :: rest).mapM (letters.lookup ·)).map .flags
  | _ => some (.positional text)

/-- The arguments after those read so far; nothing if an option is not known or lacks its value. -/
def Arguments.readAfter? (a : Arguments) : List String → Option Arguments
  | [] => some a
  | text :: rest =>
    if text == "--" then some { a with positional := a.positional ++ rest }
    else match Argument.read? text with
      | none => none
      | some (.positional text) => readAfter? { a with positional := a.positional ++ [text] } rest
      | some (.flags options) => readAfter? { a with flags := a.flags ++ options } rest
      | some (.valued option (some value)) => readAfter? { a with values := a.values.put option value } rest
      | some (.valued option none) =>
        match rest with
        | value :: rest => readAfter? { a with values := a.values.put option value } rest
        | [] => none

/-- All arguments. -/
def Arguments.read? (texts : List String) : Option Arguments := Arguments.readAfter? {} texts

/-! ## Requests -/

/-- How the result is shown. -/
inductive Style where
  /-- the number of flows and nothing else -/
  | count
  /-- all data -/
  | data
  /-- a report, with evidence or without -/
  | report (verbose : Bool)
  deriving DecidableEq, Repr, Inhabited

/-- What is asked for. -/
structure Request where
  workflow : String
  infra : Option String := none
  config : Option String := none
  minConfidence : Option Int := none
  maxFlows : Option Int := none
  style : Style := .report false
  debug : Bool := false
  deriving DecidableEq, Repr

/-- An optional integer that has to be in a range; nothing if it is none or out of range. -/
def readLimit? (inRange : Int → Bool) : Option String → Option (Option Int)
  | none => some none
  | some text => ((readInt? text).filter inRange).map some

/-- The style that flags ask for; the shortest one wins. -/
def Style.ofFlags (flags : List String) : Style :=
  if flags.contains "--quiet" then .count
  else if flags.contains "--json" then .data
  else .report (flags.contains "--verbose")

/-- The request that arguments are; nothing unless there is exactly one workflow and both limits are in
range. -/
def Request.ofArguments? (a : Arguments) : Option Request :=
  match a.positional with
  | [workflow] => do
    let least ← readLimit? (fun n => 0 ≤ n && n ≤ 100) (a.values.get? "--min-confidence")
    let most ← readLimit? (fun n => 1 ≤ n) (a.values.get? "--max-flows")
    some { workflow := workflow, infra := a.values.get? "--infra", config := a.values.get? "--config",
           minConfidence := least, maxFlows := most, style := .ofFlags a.flags,
           debug := a.flags.contains "--debug" }
  | _ => none

end DeployTrace.Command
