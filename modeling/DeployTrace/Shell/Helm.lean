/-
  DeployTrace/Shell/Helm.lean --- Helm calls in shell text.

  WHAT THIS FILE IS FOR.  A Helm command takes values in three ways that matter here: `--set` and its
  two variants, values files, and positional arguments for release and chart.

  THE `--set` ARGUMENT.  It is read twice.  First the shell's word is found, which may hold quotes and
  substitutions; then the word is cut at those commas that stand outside quotes and brackets, since one
  flag may set several values.  A piece without an equals sign belongs to the value before it.
-/
import DeployTrace.Shell.Word
import DeployTrace.Entries

set_option autoImplicit false

namespace DeployTrace.Shell.Helm

open Text Pattern

/-- A Helm call as a word of its own. -/
def invocation : Pattern := seq [wordEdge, word "helm", blanks1]

/-! ## Cutting a `--set` argument -/

/-- Brackets that open inside a value. -/
def opensBracket (c : Char) : Bool := c == '(' || c == '\x7b' || c == '['

/-- Brackets that close inside a value. -/
def closesBracket (c : Char) : Bool := c == ')' || c == '\x7d' || c == ']'

/-- Characters that open a quotation inside a value. -/
def opensQuote (c : Char) : Bool := c == '\x27' || c == '\x22' || c == graveAccent

/-- How far a scan of a value is: the brackets that are open, and the quotation it is in. -/
structure Scan where
  depth : Nat
  quote : Option Char
  deriving DecidableEq, Repr

/-- The scan before a value. -/
def Scan.start : Scan := ⟨0, none⟩

/-- Whether a character cuts the value here. -/
def Scan.cutsAt (s : Scan) (c : Char) : Bool := c == ',' && s.quote.isNone && s.depth == 0

/-- The scan after a character. -/
def Scan.next (s : Scan) (c : Char) : Scan :=
  match s.quote with
  | some q => if c == q then { s with quote := none } else s
  | none =>
    if opensQuote c then { s with quote := some c }
    else if opensBracket c then { s with depth := s.depth + 1 }
    else if closesBracket c then { s with depth := s.depth - 1 }
    else s

/-- The pieces of a value from a place on: the first one, and those after a cut. -/
def piecesFrom : Scan → Chars → Chars × List Chars
  | _, [] => ([], [])
  | s, c :: rest =>
    let (first, more) := piecesFrom (s.next c) rest
    if s.cutsAt c then ([], first :: more) else (c :: first, more)

/-- Pairs read from further pieces: a piece with an equals sign is a pair, and one without goes on with
the pair before it, which is the first of `pairs`. -/
def pairsFrom (pair : Chars × Chars) : List Chars → List (Chars × Chars)
  | [] => [pair]
  | piece :: rest =>
    match cutAt '=' piece with
    | some next => pair :: pairsFrom next rest
    | none => pairsFrom (pair.1, pair.2 ++ ',' :: piece) rest

/-- The pairs of key and raw value in one argument. -/
def rawPairs (key value : Chars) : List (Chars × Chars) :=
  let (first, more) := piecesFrom .start value
  pairsFrom (key, first) more

/-- The pairs of key and value in one argument, values without the quotes around them. -/
def setPairs (key value : Chars) : List (Chars × Chars) :=
  (rawPairs key value).map fun pair => (pair.1, unquoteChars pair.2)

/-! ## Set flags -/

/-- A flag with its key (part 2) and word (part 3); part 1 is the variant. -/
def setPattern : Pattern :=
  seq [word "--set", optional (mark 1 (oneOf [word "-string", word "-file"])),
    oneOf [blanks1, word "="], mark 2 (solid1 ['=']), word "=", mark 3 wordPattern]

/-- The variants of the set flag. -/
inductive SetFlavor where
  | plain
  | string
  | file
  deriving DecidableEq, Repr

/-- The variant a match shows. -/
def SetFlavor.ofPart (part : Option Chars) : SetFlavor :=
  if part == some "-string".toList then string else if part == some "-file".toList then file else plain

/-- One value that a command sets. -/
structure SetArgument where
  flavor : SetFlavor
  key : String
  value : String
  deriving DecidableEq, Repr

/-- The values a text sets, in order. -/
def setArguments (text : Chars) : List SetArgument :=
  (setPattern.findAll text).flatMap fun found =>
    (setPairs (found.part 2) (found.part 3)).map fun pair =>
      { flavor := .ofPart (found.part? 1), key := String.ofList pair.1, value := String.ofList pair.2 }

/-- The values a text sets: by key, and which keys came as strings or as files. -/
structure SetValues where
  values : Entries String
  stringKeys : List String
  fileKeys : List String
  deriving DecidableEq, Repr

/-- The values a text sets.  A key keeps its first place and has its last value. -/
def setValues (text : Chars) : SetValues :=
  let arguments := setArguments text
  { values := Entries.ofList (arguments.map fun a => (a.key, a.value)),
    stringKeys := (arguments.filter (·.flavor == .string)).map (·.key),
    fileKeys := (arguments.filter (·.flavor == .file)).map (·.key) }

/-! ## Values files and namespace -/

/-- A flag, after a blank or at the start, with what it takes. -/
def flagPattern (flags : List String) (argument : Pattern) : Pattern :=
  seq [oneOf [textStart, blank], oneWordOf flags, oneOf [word "=", blanks1], mark 1 argument]

/-- A values file. -/
def valuesPattern : Pattern := flagPattern ["-f", "--values"] wordPattern

/-- A namespace. -/
def namespacePattern : Pattern := flagPattern ["-n", "--namespace"] (solid1 [';', '|', '&'])

/-- The values files of a text, without repetition.  A process substitution is none, and neither is a
word that looks like a flag. -/
def valuesFiles (text : Chars) : List String :=
  distinct (((valuesPattern.findAll text).map fun found => unquoteChars (found.part 1)).filterMap
    fun file => if "-".toList.isPrefixOf file || "<(".toList.isPrefixOf file then none
      else some (String.ofList file))

/-- The namespace a text names first. -/
def namespace? (text : Chars) : Option String :=
  (namespacePattern.search text).map fun found => String.ofList (found.part 1)

/-! ## Positional arguments -/

/-- The subcommands that are told apart, in the order in which they are looked for. -/
def verbs : List String := ["install", "upgrade", "template", "lint"]

/-- The subcommands that name a release. -/
def releaseVerbs : List String := ["install", "upgrade", "uninstall", "template"]

/-- A call with a subcommand. -/
def verbCall (verb : String) : Pattern := seq [invocation, word verb, wordEdge]

/-- The first of the subcommands that a text calls. -/
def command (text : Chars) : String :=
  (verbs.find? fun verb => (verbCall verb).occursIn text).getD "other"

/-- Flags that take the word after them. -/
def valueFlags : List String :=
  ["--set", "--set-string", "--set-file", "--set-json", "-f", "--values", "-n", "--namespace",
    "--version", "--timeout", "--kube-context", "--kubeconfig", "--repo", "-o", "--output",
    "--description", "--post-renderer", "--username", "--password", "--ca-file", "--cert-file",
    "--key-file", "--history-max"]

/-- Whether a word is a flag that takes the word after it. -/
def takesNext (w : Chars) : Bool := valueFlags.contains (String.ofList w)

/-- The positional ones among words, `skip` telling that the first belongs to a flag. -/
def positionalWords : Bool → List Chars → List String
  | _, [] => []
  | true, _ :: rest => positionalWords false rest
  | false, w :: rest =>
    if "-".toList.isPrefixOf w then positionalWords (!w.contains '=' && takesNext w) rest
    else String.ofList (unquoteChars w) :: positionalWords false rest

/-- A call with one of some subcommands; part 1 is the rest of its line. -/
def callLine (verbs : List String) : Pattern :=
  seq [invocation, oneWordOf verbs, wordEdge, mark 1 line]

/-- The positional arguments of the first call with one of some subcommands. -/
def positionals (verbs : List String) (text : Chars) : List String :=
  match (callLine verbs).search text with
  | some found => positionalWords false (words (firstCommand (found.part 1)))
  | none => []

/-- The release and the chart that a call names.  A lone argument is the chart when the call makes up
the release's name or only renders, and the release otherwise. -/
def releaseAndChart (text : Chars) (command : String) : Option String × Option String :=
  if command == "install" || command == "upgrade" || command == "template" then
    match positionals [command] text with
    | [] => (none, none)
    | [only] =>
      if command == "template" || hasPart "--generate-name".toList text then (none, some only)
      else (some only, none)
    | release :: chart :: _ => (some release, some chart)
  else (none, none)

end DeployTrace.Shell.Helm
