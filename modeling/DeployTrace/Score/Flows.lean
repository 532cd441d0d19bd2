/-
  DeployTrace/Score/Flows.lean --- scores of whole lists of flows.
-/
import DeployTrace.Score.Breakdown
import DeployTrace.Detection.Selection

set_option autoImplicit false

namespace DeployTrace

/-- The canonical score of a flow. -/
def flowScore (w : ScoringWeights Number) (f : Flow) : Int :=
  (breakdown w (·.strength) f.pattern.name f.evidence).total

/-- The flows with their canonical scores in place of their own. -/
def rescore (w : ScoringWeights Number) (flows : List Flow) : List Flow :=
  flows.map fun f =>
    let score : Number := .int (flowScore w f)
    { f with confidence := score, level := .ofScore score }

/-- The flows of one level, by their confidence. -/
def flowsOfLevel (level : ConfidenceLevel) (flows : List Flow) : List Flow :=
  flows.filter fun f => ConfidenceLevel.ofScore f.confidence == level

/-- The mean confidence, rounded; zero without flows. -/
def averageConfidence (flows : List Flow) : Int := roundedMean (flows.map Flow.confidence)

end DeployTrace
