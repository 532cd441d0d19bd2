/-
  DeployTrace/Report/Result.lean --- the report on a workflow.

  WHAT THIS FILE IS FOR.  What was found is shown in a fixed order: a frame with the summary, errors, the
  flows as a grid, their evidence if it is asked for, warnings, the nodes that jobs act on as another
  grid, and the flows of which both ends are nodes.  Parts with nothing in them are left out.
-/
import DeployTrace.Link.CrossReference
import DeployTrace.Report.Markup
import DeployTrace.Report.Grid

set_option autoImplicit false

namespace DeployTrace.Report

open Markup

/-! ## Looks -/

/-- The color that tells how sure something is. -/
def confidenceColor (confidence : Number) : String :=
  if Number.le 80 confidence then "green" else if Number.le 50 confidence then "yellow" else "red"

/-- A text between the tags of a style. -/
def styled (style text : String) : String := "[" ++ style ++ "]" ++ text ++ "[/" ++ style ++ "]"

/-- The short names of patterns, each with its style. -/
def patternLooks : List (String × String) :=
  [(FlowPattern.directOutput.name, styled "bold green" "direct"),
    (FlowPattern.outputToEnv.name, styled "cyan" "env"),
    (FlowPattern.outputToFile.name, styled "blue" "file"),
    (FlowPattern.artifactTransfer.name, styled "magenta" "artifact")]

/-- What is shown for a pattern: its short name if it has one. -/
def patternLook (pattern : String) : String := (patternLooks.lookup pattern).getD pattern

/-- A confidence in its color. -/
def confidenceLook (confidence : Number) : String := styled (confidenceColor confidence) confidence.render

/-! ## Parts -/

/-- A part of the report. -/
inductive Part where
  /-- an empty line -/
  | gap
  /-- a text with tags -/
  | message (markup : String)
  /-- a text with tags in a frame -/
  | framed (title subtitle markup : String)
  /-- a grid of texts with tags -/
  | grid (title : String) (columns : List Column) (rows : List (List String))
  deriving Repr

/-- The lines of a part on a terminal; nothing if a tag in it is closed that is not open. -/
def Part.lines? (terminal : Nat) : Part → Option (List Text.Chars)
  | gap => some [[]]
  | message markup => (plain? markup).map (printed terminal)
  | framed title subtitle markup => (plain? markup).map (frame terminal title subtitle)
  | grid title columns rows =>
    (rows.mapM (List.mapM plain?)).map fun rows => Grid.lines terminal { title, columns, rows }

/-- The summary in its frame. -/
def summaryPart (s : Summary) : Part :=
  let level (l : ConfidenceLevel) : String := Int.repr ((s.byLevel.get? l.name).getD 0)
  .framed "tfxref Analysis" "Terraform to Helm Cross-Reference"
    (styled "bold" ("Flows detected: " ++ Int.repr s.totalFlows) ++ "\n\n"
      ++ "Average confidence: " ++ styled ("bold " ++ confidenceColor (.int s.average)) (Int.repr s.average)
      ++ "  |  High: " ++ level .high ++ "  Medium: " ++ level .medium ++ "  Low: " ++ level .low ++ "\n"
      ++ "Terraform jobs: " ++ Int.repr s.terraformJobs ++ "  |  Helm jobs: " ++ Int.repr s.helmJobs)

/-- A message of a kind under its code. -/
def coded (style kind code message : String) : Part :=
  .message (styled style (kind ++ ":") ++ " " ++ code ++ ": " ++ escape message)

/-- The flows as a grid. -/
def flowGrid (flows : List Flow) : Part :=
  .grid "Flows" [⟨"Output", .left⟩, ⟨"Source Job", .left⟩, ⟨"Helm Value", .left⟩, ⟨"Target Job", .left⟩,
      ⟨"Pattern", .center⟩, ⟨"Confidence", .center⟩]
    (flows.map fun f => [escape f.source.name, escape f.source.jobId, escape f.target.path,
      escape f.target.jobId, patternLook f.pattern.name, confidenceLook f.confidence])

/-- An item of evidence. -/
def evidenceParts (e : Evidence) : List Part :=
  [.message ("  " ++ styled "white" e.kind.name ++ " (" ++ e.strength.renderWhole ++ ")"),
    .message ("     " ++ styled "dim" (escape e.description))]
    ++ ((e.snippet.filter fun s => !s.isEmpty).map fun s =>
      Part.message ("     " ++ styled "dim italic" ("→ " ++ escape s))).toList

/-- A flow with its evidence. -/
def flowParts (f : Flow) : List Part :=
  [.message (styled "bold cyan" (escape f.source.name ++ " → " ++ escape f.target.path)),
    .message ("  " ++ styled "dim" ("chain: " ++ escape (" → ".intercalate f.setting.jobChain)))]
    ++ f.evidence.flatMap evidenceParts ++ [.gap]

/-- The nodes that jobs act on as a grid. -/
def operationGrid (edges : List OperatesOn) : Part :=
  .grid "Job Operations" [⟨"Job Node", .left⟩, ⟨"Type", .center⟩, ⟨"Step", .center⟩, ⟨"Target Node", .left⟩,
      ⟨"Reason", .left⟩, ⟨"Confidence", .center⟩]
    (edges.map fun e => [e.source, e.kind.name, Nat.repr e.stepIndex, e.target, e.reason.name,
      confidenceLook e.confidence])

/-- A flow of which both ends are nodes. -/
def feedPart (f : FeedsInto) : Part :=
  .message ("  " ++ escape f.flow.source.name ++ " → " ++ escape f.flow.target.path ++ " "
    ++ styled "dim" ("(" ++ f.source ++ " → " ++ f.target ++ ")"))

/-- The parts of the report, those with nothing in them left out. -/
def parts (verbose : Bool) (x : CrossReference) : List Part :=
  let a := x.analysis
  let present (empty : Bool) (parts : List Part) : List Part := if empty then [] else parts
  [.gap, summaryPart a.summary]
    ++ a.errors.map (fun e => coded "red" "Error" e.code e.message)
    ++ present a.flows.isEmpty [.gap, flowGrid a.flows]
    ++ present (!verbose || a.flows.isEmpty)
      ([.gap, .message (styled "bold" "Evidence:"), .gap] ++ a.flows.flatMap flowParts)
    ++ present a.warnings.isEmpty (.gap :: a.warnings.map fun w => coded "yellow" "Warning" w.code w.message)
    ++ present x.operatesOn.isEmpty [.gap, operationGrid x.operatesOn]
    ++ present x.feedsInto.isEmpty
      ([.gap, .message (styled "bold" "FEEDS_INTO edges:" ++ " " ++ Nat.repr x.feedsInto.length)]
        ++ x.feedsInto.map feedPart)

/-- The cells of a line on the terminal that reports are laid out for. -/
def terminalWidth : Nat := 200

/-- The lines of parts; nothing if a tag in one is closed that is not open. -/
def lines? (parts : List Part) : Option (List String) :=
  (parts.mapM (Part.lines? terminalWidth)).map fun found => found.flatten.map String.ofList

end DeployTrace.Report
