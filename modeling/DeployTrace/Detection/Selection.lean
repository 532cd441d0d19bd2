/-
  DeployTrace/Detection/Selection.lean --- which of the flows found are reported.

  Of the flows of all enabled detectors, the first of every key stays; those below the least confidence
  go; the rest is sorted by confidence, flows of the same confidence staying in the order in which they
  were found; and the list is cut at the greatest number of flows.
-/
import DeployTrace.Detection.Detector
import DeployTrace.Options.Detector

set_option autoImplicit false

namespace DeployTrace

/-- Flows in the order of reports: the surest first. -/
def sortByConfidence (flows : List Flow) : List Flow :=
  sortBy (fun a b => b.confidence.lt a.confidence) flows

/-- The flows that reach a confidence. -/
def atLeast (threshold : Number) (flows : List Flow) : List Flow :=
  flows.filter fun f => threshold.le f.confidence

/-- The flows that detectors find in a context, one detector after the other.  A detector that is
switched off, does not apply or fails finds none. -/
def foundFlows (options : DetectorOptions) (detectors : List Detector) (ctx : Context) :
    List (List Flow) :=
  detectors.map fun d =>
    if options.isEnabled d.pattern && d.applies ctx then
      match d.detect ctx with
      | .ok flows => flows
      | .error _ => []
    else []

/-- The flows to report out of those found. -/
def selectFlows (options : DetectorOptions) (found : List (List Flow)) : List Flow :=
  keepFirst options.maxFlows
    (sortByConfidence (atLeast options.minConfidence (mergeFlows found)))

/-- The flows to report for a context; none unless the workflow runs both tools. -/
def flowsInContext (options : DetectorOptions) (detectors : List Detector) (ctx : Context) : List Flow :=
  if ctx.hasBothTools then selectFlows options (foundFlows options detectors ctx) else []

end DeployTrace
