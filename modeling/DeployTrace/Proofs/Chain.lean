/-
  DeployTrace/Proofs/Chain.lean --- chains of jobs.

  A chain of jobs leads from the job in which a flow starts to the job in which it ends, whatever the
  dependencies between them are: when the search fails, the chain is the two jobs alone.
-/
import DeployTrace.Detection.Dependency

set_option autoImplicit false

namespace DeployTrace

/-- A list of jobs that starts with one job and ends with another. -/
def LeadsFromTo (chain : List String) (source target : String) : Prop :=
  chain.head? = some source ∧ chain.getLast? = some target

/-- What the search keeps: every path in the queue goes back to the source. -/
theorem chainSearch_leads {dependencies : Entries (List String)} {source target : String}
    {rounds : Nat} {queue : List (List String)} {visited chain : List String}
    (back : ∀ path ∈ queue, path.getLast? = some source)
    (h : chainSearch dependencies target rounds queue visited = some chain) :
    LeadsFromTo chain source target := by
  induction rounds generalizing queue visited with
  | zero => simp [chainSearch] at h
  | succ rounds ih =>
      cases queue with
      | nil => simp [chainSearch] at h
      | cons path queue =>
          have hpath : path.getLast? = some source := back path List.mem_cons_self
          unfold chainSearch at h
          simp only at h
          split at h
          · cases h
            refine ⟨?_, ?_⟩
            · rw [List.head?_reverse, List.getLast?_cons, hpath, Option.getD_some]
            · rw [List.getLast?_reverse, List.head?_cons]
          · refine ih ?_ h
            intro longer hlonger
            rcases List.mem_append.mp hlonger with hold | hnew
            · exact back longer (List.mem_cons_of_mem path hold)
            · obtain ⟨job, -, rfl⟩ := List.mem_map.mp hnew
              rw [List.getLast?_cons, hpath, Option.getD_some]

/-- The chain of a flow leads from its source to its target. -/
theorem jobChain_leads (dependencies : Entries (List String)) (source target : String) :
    LeadsFromTo (jobChain dependencies source target) source target := by
  unfold jobChain
  split
  · rename_i hsame
    rw [beq_iff_eq] at hsame
    rw [← hsame]
    exact ⟨rfl, rfl⟩
  · cases hsearch : chainSearch dependencies target (dependencies.length + 1) [[source]] [source] with
    | none => exact ⟨rfl, rfl⟩
    | some chain =>
        refine chainSearch_leads ?_ hsearch
        intro path hpath
        rw [List.mem_singleton] at hpath
        rw [hpath]
        rfl

end DeployTrace
