/-
  DeployTrace/Options/Detector.lean --- options for detection.

  Options come with defaults, and a settings file may replace them.  What such a file holds under a name
  may have any shape: numbers are read also from texts, everything counts as true or false, and what
  cannot be read is an error with a cause.
-/
import DeployTrace.Flow.Vocabulary
import DeployTrace.Tree.Written
import DeployTrace.Number.Reading
import DeployTrace.Entries

set_option autoImplicit false

namespace DeployTrace

/-! ## Options -/

/-- Options for detection. -/
structure DetectorOptions where
  /-- flows below this confidence are left out -/
  minConfidence : Number := 40
  /-- how many flows are reported; a negative number leaves that many out at the end -/
  maxFlows : Int := 100
  /-- whether a pattern is looked for, by its spelling -/
  enabledPatterns : Entries Bool := FlowPattern.all.map fun p => (p.name, true)
  debug : Bool := false
  deriving DecidableEq, Repr

/-- Whether a pattern is looked for; one that is not mentioned is. -/
def DetectorOptions.isEnabled (o : DetectorOptions) (p : FlowPattern) : Bool :=
  (o.enabledPatterns.get? p.name).getD true

/-- Options as data. -/
def DetectorOptions.toTree (o : DetectorOptions) : Tree :=
  .ofFields [("minConfidence", .number o.minConfidence), ("maxFlows", .int o.maxFlows),
    ("enabledPatterns", .ofFields (o.enabledPatterns.map fun (name, on) => (name, .bool on))),
    ("debug", .bool o.debug)]

/-! ## Reading settings -/

/-- Why a setting cannot be read. -/
inductive SettingFault where
  /-- a text that is no number -/
  | notAFraction (text : String)
  /-- a text that is no integer -/
  | notAnInteger (text : String)
  /-- a text with more digits than an integer is read from -/
  | tooManyDigits (count : Nat)
  /-- a fraction that has no integer part -/
  | noIntegerPart (number : Binary64)
  /-- an integer that is beyond all finite fractions -/
  | beyondFractions
  /-- something that is neither a number nor a text -/
  | wrongKind (kind : String)
  deriving DecidableEq, Repr

/-- The wording of a fault. -/
def SettingFault.message : SettingFault → String
  | notAFraction text => "could not convert string to float: " ++ quoted text
  | notAnInteger text => "invalid literal for int() with base 10: " ++ quoted text
  | tooManyDigits count =>
    "Exceeds the limit (" ++ Nat.repr digitLimit ++ " digits) for integer string conversion: value has " ++
      Nat.repr count ++ " digits; use sys.set_int_max_str_digits() to increase the limit"
  | noIntegerPart number =>
    if number == .nan then "cannot convert float NaN to integer"
    else "cannot convert float infinity to integer"
  | beyondFractions => "int too large to convert to float"
  | wrongKind kind => "a number or a text was expected, not " ++ kind

/-- Whether a fault is one of a value that can be mended, and not of a value of the wrong kind. -/
def SettingFault.isReported : SettingFault → Bool
  | notAFraction _ => true
  | notAnInteger _ => true
  | tooManyDigits _ => true
  | noIntegerPart number => number == .nan
  | beyondFractions => false
  | wrongKind _ => false

/-- A setting as a fraction.  Fractions may be infinite, but no integer is read as infinite. -/
def fractionSetting : Tree → Except SettingFault Number
  | .text s =>
    match readFraction? s with
    | some x => .ok (.fraction x)
    | none => .error (.notAFraction s)
  | t =>
    match t.number? with
    | some (.int i) =>
      if (Binary64.ofInt i).isFinite then .ok (.fraction (.ofInt i)) else .error .beyondFractions
    | some (.fraction x) => .ok (.fraction x)
    | none => .error (.wrongKind t.kindName)

/-- The digits of an integer at the start of a text, if there are too many of them.  An underscore after
them is out of place, which is said first. -/
def excessDigits? (text : String) : Option Nat :=
  let (digits, rest) := takeDigits (takeSign (Text.stripChars text.toList)).2
  if digitLimit < digits.length && rest.head? != some '_' then some digits.length else none

/-- A setting as an integer; of a fraction the places after the point are cut off. -/
def integerSetting : Tree → Except SettingFault Int
  | .text s =>
    match excessDigits? s, readInt? s with
    | some count, _ => .error (.tooManyDigits count)
    | none, some i => .ok i
    | none, none => .error (.notAnInteger s)
  | t =>
    match t.number? with
    | some (.int i) => .ok i
    | some (.fraction x) => if x.isFinite then .ok x.truncate else .error (.noIntegerPart x)
    | none => .error (.wrongKind t.kindName)

/-- A section of a settings file; what is no table counts as empty. -/
def section? (settings : Table) (name : String) : Table := (settings.field name).table?.getD []

/-- A setting read when it is there. -/
def readSetting {α : Type} (settings : Table) (name : String) (default : α)
    (read : Tree → Except SettingFault α) : Except SettingFault α :=
  match settings.field? name with
  | some value => read value
  | none => .ok default

/-- The patterns switched off or on by a list of names and then by a table of flags.  Names of no
pattern are passed over. -/
def switchPatterns (settings : Table) (enabled : Entries Bool) : Entries Bool :=
  let known := FlowPattern.all.map FlowPattern.name
  let named := ((settings.field "disabled_patterns").list?.getD []).filterMap Tree.text?
  let off := (named.filter known.contains).foldl (fun on name => Entries.put on name false) enabled
  ((settings.field "enabled_patterns").table?.getD []).foldl (fun on entry =>
    match entry.1 with
    | .text name => if known.contains name then Entries.put on name entry.2.isTruthy else on
    | _ => on) off

/-- The options that a settings file gives. -/
def DetectorOptions.ofSettings (settings : Table) : Except SettingFault DetectorOptions := do
  let own := section? settings "detector"
  let base : DetectorOptions := {}
  let minConfidence ← readSetting own "min_confidence" base.minConfidence fractionSetting
  let maxFlows ← readSetting own "max_flows" base.maxFlows integerSetting
  return {
    minConfidence := minConfidence, maxFlows := maxFlows,
    enabledPatterns := switchPatterns own base.enabledPatterns,
    debug := ((own.field? "debug").map Tree.isTruthy).getD base.debug }

end DeployTrace
