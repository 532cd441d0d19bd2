/-
  DeployTrace/Detection/Dependency.lean --- paths between jobs.

  WHAT THIS FILE IS FOR.  A flow between two jobs is more likely when the later one depends on the
  earlier one, directly or through one job between them; and a flow is reported with the chain of jobs
  along which the value travels.

  THE SEARCH.  The chain is found breadth first, from the source along the jobs that depend on it.  Each
  job enters the queue once, so a search of as many rounds as there are jobs is complete.
-/
import DeployTrace.Detection.Context

set_option autoImplicit false

namespace DeployTrace

/-- Whether a job depends on another one, directly or with one job between them. -/
def Context.dependsOn (ctx : Context) (job other : String) : Bool :=
  (ctx.dependenciesOf job).contains other ||
    (ctx.dependenciesOf job).any fun between => (ctx.dependenciesOf between).contains other

/-- The jobs that declare a dependency on a job, in the order of the map. -/
def dependents (dependencies : Entries (List String)) (job : String) : List String :=
  dependencies.flatMap fun (id, on) => (on.filter (· == job)).map fun _ => id

/-- The rest of a breadth-first search for a path to `target`: `queue` holds paths, each with its last
job first, and `visited` the jobs that have been in the queue. -/
def chainSearch (dependencies : Entries (List String)) (target : String) :
    Nat → List (List String) → List String → Option (List String)
  | 0, _, _ => none
  | _, [], _ => none
  | rounds + 1, path :: queue, visited =>
    let next := dependents dependencies (path.headD "")
    if next.contains target then some (target :: path).reverse
    else
      let fresh := (distinct next).filter fun job => !visited.contains job
      chainSearch dependencies target rounds (queue ++ fresh.map (· :: path)) (visited ++ fresh)

/-- The shortest chain of jobs from a source to a target, each a declared dependency of the next; when
there is none, the two jobs alone. -/
def jobChain (dependencies : Entries (List String)) (source target : String) : List String :=
  if source == target then [source]
  else (chainSearch dependencies target (dependencies.length + 1) [[source]] [source]).getD
    [source, target]

end DeployTrace
