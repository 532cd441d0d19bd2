/-
  DeployTrace/Flow/Vocabulary.lean --- the words in which flows are described.

  Every vocabulary is closed: a report uses these words and no others.  Each has its spelling in one
  function and the reading of a spelling beside it.
-/
import DeployTrace.Number.Basic

set_option autoImplicit false

namespace DeployTrace

/-! ## Ways in which an output reaches a value -/

/-- The way in which a Terraform output reaches a Helm value. -/
inductive FlowPattern where
  | directOutput
  | outputToEnv
  | outputToFile
  | outputToSecret
  | jobChain
  | artifactTransfer
  | matrixPropagation
  | inferred
  deriving DecidableEq, Repr, Inhabited

namespace FlowPattern

/-- All patterns, in the order in which reports count them. -/
def all : List FlowPattern :=
  [directOutput, outputToEnv, outputToFile, outputToSecret, jobChain, artifactTransfer,
    matrixPropagation, inferred]

/-- The spelling of a pattern. -/
def name : FlowPattern → String
  | directOutput => "direct_output"
  | outputToEnv => "output_to_env"
  | outputToFile => "output_to_file"
  | outputToSecret => "output_to_secret"
  | jobChain => "job_chain"
  | artifactTransfer => "artifact_transfer"
  | matrixPropagation => "matrix_propagation"
  | inferred => "inferred"

/-- The pattern with a spelling. -/
def ofName? (s : String) : Option FlowPattern := all.find? fun p => p.name == s

theorem mem_all (p : FlowPattern) : p ∈ all := by cases p <;> decide

end FlowPattern

/-! ## Kinds of evidence -/

/-- What an item of evidence for a flow rests on. -/
inductive EvidenceKind where
  | explicitReference
  | expressionMatch
  | jobDependency
  | envVariable
  | filePathMatch
  | artifactPath
  | namingConvention
  | semanticMatch
  | stepProximity
  deriving DecidableEq, Repr, Inhabited

namespace EvidenceKind

/-- All kinds. -/
def all : List EvidenceKind :=
  [explicitReference, expressionMatch, jobDependency, envVariable, filePathMatch, artifactPath,
    namingConvention, semanticMatch, stepProximity]

/-- The spelling of a kind. -/
def name : EvidenceKind → String
  | explicitReference => "explicit_reference"
  | expressionMatch => "expression_match"
  | jobDependency => "job_dependency"
  | envVariable => "env_variable"
  | filePathMatch => "file_path_match"
  | artifactPath => "artifact_path"
  | namingConvention => "naming_convention"
  | semanticMatch => "semantic_match"
  | stepProximity => "step_proximity"

/-- The kind with a spelling. -/
def ofName? (s : String) : Option EvidenceKind := all.find? fun k => k.name == s

theorem mem_all (k : EvidenceKind) : k ∈ all := by cases k <;> decide

end EvidenceKind

/-! ## Ways in which a command takes a value -/

/-- The way in which a Helm command takes a value. -/
inductive ValueChannel where
  | setFlag
  | setString
  | setFile
  | envSubstitution
  | valuesFile
  deriving DecidableEq, Repr, Inhabited

namespace ValueChannel

/-- All channels. -/
def all : List ValueChannel := [setFlag, setString, setFile, envSubstitution, valuesFile]

/-- The spelling of a channel. -/
def name : ValueChannel → String
  | setFlag => "set_flag"
  | setString => "set_string"
  | setFile => "set_file"
  | envSubstitution => "env_substitution"
  | valuesFile => "values_file"

/-- The channel with a spelling. -/
def ofName? (s : String) : Option ValueChannel := all.find? fun c => c.name == s

end ValueChannel

/-! ## Levels of confidence -/

/-- How sure a flow is. -/
inductive ConfidenceLevel where
  | high
  | medium
  | low
  deriving DecidableEq, Repr, Inhabited

namespace ConfidenceLevel

/-- All levels, in the order in which reports count them. -/
def all : List ConfidenceLevel := [high, medium, low]

/-- The spelling of a level. -/
def name : ConfidenceLevel → String
  | high => "high"
  | medium => "medium"
  | low => "low"

/-- The level with a spelling. -/
def ofName? (s : String) : Option ConfidenceLevel := all.find? fun l => l.name == s

/-- The level of a score: high from 80 on, medium from 50 on. -/
def ofScore (score : Number) : ConfidenceLevel :=
  if Number.le 80 score then high else if Number.le 50 score then medium else low

theorem mem_all (l : ConfidenceLevel) : l ∈ all := by cases l <;> decide

end ConfidenceLevel

/-! ## Origins of variables -/

/-- Where the value of a variable comes from. -/
inductive OriginKind where
  | terraformOutput
  | jobOutput
  | stepOutput
  | envVariable
  | secret
  | input
  | artifact
  | unknown
  deriving DecidableEq, Repr, Inhabited

namespace OriginKind

/-- All kinds of origin. -/
def all : List OriginKind :=
  [terraformOutput, jobOutput, stepOutput, envVariable, secret, input, artifact, unknown]

/-- The spelling of a kind of origin. -/
def name : OriginKind → String
  | terraformOutput => "terraform_output"
  | jobOutput => "job_output"
  | stepOutput => "step_output"
  | envVariable => "env_variable"
  | secret => "secret"
  | input => "input"
  | artifact => "artifact"
  | unknown => "unknown"

/-- The kind of origin with a spelling. -/
def ofName? (s : String) : Option OriginKind := all.find? fun k => k.name == s

end OriginKind

end DeployTrace
