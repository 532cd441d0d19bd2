/-
  DeployTrace/Options/Linker.lean --- options for linking jobs to nodes.

  A settings file may hold anything under the names of these options, and it is kept as it stands.  What
  an option means is asked for where it is used, and one of a wrong kind is a fault only there.
-/
import DeployTrace.Options.Detector

set_option autoImplicit false

namespace DeployTrace

/-- Options for linking, as they are set. -/
structure LinkerOptions where
  /-- links below this confidence are left out -/
  minConfidence : Tree := .int 50
  /-- whether directories that are merely alike count -/
  fuzzyPaths : Tree := .bool true
  /-- whether alike names count -/
  nameSimilarity : Tree := .bool true
  /-- how many links one operation may have; nothing for any number -/
  maxEdges : Tree := .int 5
  deriving Repr

/-- Why nodes cannot be linked. -/
inductive LinkFault where
  /-- the least confidence is no number -/
  | thresholdKind (kind : String)
  /-- the number of links is no integer -/
  | limitKind (kind : String)
  /-- a fact about a node should be a text -/
  | factKind (kind : String)
  deriving DecidableEq, Repr

namespace LinkerOptions

/-- The least confidence. -/
def threshold (o : LinkerOptions) : Except LinkFault Number :=
  match o.minConfidence.number? with
  | some n => .ok n
  | none => .error (.thresholdKind o.minConfidence.kindName)

/-- The first elements of a list, as many as one operation may have. -/
def keepBest {α : Type} (o : LinkerOptions) (xs : List α) : Except LinkFault (List α) :=
  match o.maxEdges with
  | .null => .ok xs
  | .bool b => .ok (keepFirst (if b then 1 else 0) xs)
  | .int i => .ok (keepFirst i xs)
  | other => .error (.limitKind other.kindName)

/-- The options that a settings file gives. -/
def ofSettings (settings : Table) : LinkerOptions :=
  let own := section? settings "linker"
  let base : LinkerOptions := {}
  { minConfidence := (own.field? "min_confidence").getD base.minConfidence,
    fuzzyPaths := (own.field? "fuzzy_path_matching").getD base.fuzzyPaths,
    nameSimilarity := (own.field? "name_similarity_matching").getD base.nameSimilarity,
    maxEdges := (own.field? "max_edges_per_operation").getD base.maxEdges }

end LinkerOptions

end DeployTrace
