/-
  DeployTrace/Score/Breakdown.lean --- the canonical score of a flow.

  WHAT THIS FILE IS FOR.  A score is a base for the pattern, a part of the weighted mean strength of the
  evidence, a bonus for explicit evidence and a penalty for weak evidence, brought into the range from 0
  to 100 and rounded.

  THE ARITHMETIC IS A PARAMETER.  The same definitions are run with the machine's numbers and reasoned
  about over the rationals; `strength` says how an item's strength is read in the arithmetic at hand.
-/
import DeployTrace.Flow.Basic
import DeployTrace.Number.Arithmetic
import DeployTrace.Text.Cut

set_option autoImplicit false

namespace DeployTrace

open Text

/-! ## Weights -/

/-- The knobs of the score. -/
structure ScoringWeights (α : Type) where
  /-- the part of the mean strength that counts -/
  evidenceWeight : α
  maxExplicitBonus : α
  maxWeaknessPenalty : α
  /-- bases by the spelling of a pattern -/
  patternBases : Entries α
  /-- weights by the spelling of a kind of evidence -/
  kindWeights : Entries α
  deriving DecidableEq, Repr

/-- The bases of the patterns. -/
def FlowPattern.standardBase : FlowPattern → Int
  | directOutput => 90
  | outputToSecret => 85
  | outputToEnv => 80
  | outputToFile => 75
  | jobChain => 70
  | artifactTransfer => 65
  | matrixPropagation => 60
  | inferred => 40

/-- The weights of the kinds of evidence. -/
def EvidenceKind.standardWeight : EvidenceKind → Rat
  | explicitReference => 1
  | expressionMatch => 9 / 10
  | envVariable => 8 / 10
  | jobDependency => 8 / 10
  | artifactPath => 7 / 10
  | filePathMatch => 6 / 10
  | semanticMatch => 6 / 10
  | namingConvention => 5 / 10
  | stepProximity => 4 / 10

variable {α : Type} [Arithmetic α]

/-- The weights in use unless others are given. -/
def ScoringWeights.standard : ScoringWeights α where
  evidenceWeight := Arithmetic.ofRat (3 / 10)
  maxExplicitBonus := Arithmetic.ofInt 20
  maxWeaknessPenalty := Arithmetic.ofInt 25
  patternBases := FlowPattern.all.map fun p => (p.name, Arithmetic.ofInt p.standardBase)
  kindWeights := EvidenceKind.all.map fun k => (k.name, Arithmetic.ofRat k.standardWeight)

/-- The base of a pattern, given by its spelling; 40 for one that has none. -/
def ScoringWeights.base (w : ScoringWeights α) (pattern : String) : α :=
  (w.patternBases.get? pattern).getD (Arithmetic.ofInt 40)

/-- The weight of a kind of evidence; one half for one that has none. -/
def ScoringWeights.kindWeight (w : ScoringWeights α) (kind : EvidenceKind) : α :=
  (w.kindWeights.get? kind.name).getD (Arithmetic.ofRat (1 / 2))

/-! ## The parts of a score -/

/-- Whether some item is of a kind. -/
def hasKind (evidence : List Evidence) (kind : EvidenceKind) : Bool := evidence.any (·.kind == kind)

/-- The part of the weighted mean strength that counts; zero without evidence or without weight. -/
def evidenceScore (w : ScoringWeights α) (strength : Evidence → α) (evidence : List Evidence) : α :=
  let total := Arithmetic.sum (evidence.map fun e => w.kindWeight e.kind)
  if evidence.isEmpty || Arithmetic.same total (Arithmetic.ofInt 0) then Arithmetic.ofInt 0
  else
    let weighted := Arithmetic.sum (evidence.map fun e => Arithmetic.mul (strength e) (w.kindWeight e.kind))
    Arithmetic.mul (Arithmetic.div weighted total) w.evidenceWeight

/-- Whether an item quotes a dependency of a job. -/
def Evidence.quotesNeeds (e : Evidence) : Bool :=
  let snippet := e.snippet.getD ""
  contains snippet "needs." || contains snippet "needs:"

/-- Points for explicit evidence before the limit. -/
def explicitPoints (evidence : List Evidence) : Nat :=
  let explicit := hasKind evidence .explicitReference
  (if explicit then 10 else 0) + (if hasKind evidence .jobDependency then 5 else 0)
    + (if hasKind evidence .namingConvention then 3 else 0)
    + (if !explicit && evidence.any Evidence.quotesNeeds then 5 else 0)

/-- The bonus for explicit evidence. -/
def explicitBonus (w : ScoringWeights α) (evidence : List Evidence) : α :=
  Arithmetic.least (Arithmetic.ofInt (explicitPoints evidence)) w.maxExplicitBonus

/-- Kinds of evidence that are weak on their own. -/
def EvidenceKind.isWeak : EvidenceKind → Bool
  | semanticMatch => true
  | stepProximity => true
  | namingConvention => true
  | _ => false

/-- Marks of tools that reshape a value on its way. -/
def transformMarks : List String := ["jq ", "yq ", "envsubst", "sed ", "awk "]

/-- The snippets of the evidence as one text. -/
def snippetText (evidence : List Evidence) : String :=
  " ".intercalate ((evidence.filterMap (·.snippet)).filter fun s => !s.isEmpty)

/-- Points for weak evidence before the limit. -/
def weakPoints (strength : Evidence → α) (pattern : String) (evidence : List Evidence) : Nat :=
  let weak := (evidence.filter fun e => Arithmetic.lt (strength e) (Arithmetic.ofInt 50)).length
  (if !evidence.isEmpty && evidence.all (·.kind.isWeak) then 5 else 0)
    + 3 * (transformMarks.filter (contains (snippetText evidence))).length
    + (if pattern == FlowPattern.inferred.name then 5 else 0)
    + (if !evidence.isEmpty && evidence.length < 2 * weak then 5 else 0)

/-- The penalty for weak evidence. -/
def weaknessPenalty (w : ScoringWeights α) (strength : Evidence → α) (pattern : String)
    (evidence : List Evidence) : α :=
  Arithmetic.least (Arithmetic.ofInt (weakPoints strength pattern evidence)) w.maxWeaknessPenalty

/-! ## The score -/

/-- A score with its parts. -/
structure Breakdown (α : Type) where
  patternBase : α
  evidenceScore : α
  explicitBonus : α
  weaknessPenalty : α
  total : Int
  level : ConfidenceLevel
  deriving DecidableEq, Repr

/-- The score of a pattern, given by its spelling, with some evidence. -/
def breakdown (w : ScoringWeights α) (strength : Evidence → α) (pattern : String)
    (evidence : List Evidence) : Breakdown α :=
  let base := w.base pattern
  let score := evidenceScore w strength evidence
  let bonus := explicitBonus w evidence
  let penalty := weaknessPenalty w strength pattern evidence
  let total := Arithmetic.round (Arithmetic.clampScore
    (Arithmetic.sub (Arithmetic.add (Arithmetic.add base score) bonus) penalty))
  { patternBase := base, evidenceScore := score, explicitBonus := bonus, weaknessPenalty := penalty,
    total := total, level := .ofScore (.int total) }

/-- A score with its parts as data. -/
def Breakdown.toTree (b : Breakdown Number) : Tree :=
  .ofFields [("patternBase", .number b.patternBase),
    ("evidenceScore", .number b.evidenceScore.roundToCents),
    ("explicitBonus", .number b.explicitBonus), ("weaknessPenalty", .number b.weaknessPenalty),
    ("total", .int b.total), ("level", .text b.level.name)]

end DeployTrace
