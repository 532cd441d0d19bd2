import DeployTrace.Main
import DeployTrace.Options.Logging
import DeployTrace.Proofs.DirectIdiom
import DeployTrace.Proofs.ShortestChains
import DeployTrace.Proofs.DependencyWarnings
import DeployTrace.Step.Trace
import DeployTrace.Proofs.Eviction
import DeployTrace.Proofs.StricterOptions
import DeployTrace.Proofs.WorkflowShapes
import DeployTrace.Proofs.Linking
import DeployTrace.Proofs.KeyOrder
import DeployTrace.Proofs.LinkedOnce
import DeployTrace.Proofs.StrongerEvidence
import DeployTrace.Proofs.EvidenceOrder
import DeployTrace.Proofs.FileNames
import DeployTrace.Proofs.WeakDuplicates
import DeployTrace.Proofs.QuotedArguments
import DeployTrace.Proofs.NamedCalls
import DeployTrace.Proofs.Positionals
import DeployTrace.Proofs.ReleaseNames
import DeployTrace.Proofs.JoinedOperations
import DeployTrace.Proofs.OutputModules
import DeployTrace.Proofs.EditDistance
import DeployTrace.Proofs.PathSpellings
import DeployTrace.Proofs.MatchingHeuristics
import DeployTrace.Proofs.MergeLaws
import DeployTrace.Proofs.Origins
import DeployTrace.Proofs.WrittenReferences
import DeployTrace.Proofs.UploadOrder
import DeployTrace.Proofs.NameTexts
import DeployTrace.Proofs.OwnSteps
import DeployTrace.Proofs.ToolMentions
import DeployTrace.Proofs.SetCuts
import DeployTrace.Proofs.FoldedRuns
import DeployTrace.Proofs.SettingFaults
import DeployTrace.Proofs.WrittenParts
