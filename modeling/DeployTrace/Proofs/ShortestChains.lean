/-
  DeployTrace/Proofs/ShortestChains.lean --- the chain between two jobs is a shortest path.

  WHAT THIS FILE IS FOR.  The chain between two jobs is found by a breadth-first search that follows the
  declared dependencies from the source on.  Whatever is declared (cycles, a job that depends on itself,
  dependencies on jobs that do not exist), the search ends, and it finds a path with as few jobs as
  possible.  Where there is no path, the chain is the two jobs alone.

  WHAT CARRIES THE PROOF.  `SearchState` describes a search in its course.  It knows the paths that were
  taken from the queue as well as those that are still in it: together they stand in order of length,
  and a dependent of a job that was taken has a path that is at most one job longer.  That any trail
  from the source is at least as long as what the queue holds (`SearchState.reached`) follows from one
  such state by induction on the trail; no induction on the search is needed for it.
-/
import Mathlib.Data.List.Chain
import Mathlib.Data.List.Perm.Subperm
import DeployTrace.Proofs.Chain
import DeployTrace.Proofs.Entries

set_option autoImplicit false

namespace DeployTrace

/-! ## Paths along declared dependencies -/

/-- A path from one job to another: each job on it is a declared dependency of the next. -/
structure Context.DependencyPath (ctx : Context) (source target : String) (path : List String) :
    Prop where
  leads : LeadsFromTo path source target
  declared : path.IsChain fun job next => job ∈ ctx.dependenciesOf next

/-- A path read backwards, from its last job to the source. -/
structure Context.Trail (ctx : Context) (source : String) (trail : List String) : Prop where
  start : trail.getLast? = some source
  declared : trail.IsChain fun job earlier => earlier ∈ ctx.dependenciesOf job

section

variable {ctx : Context} {source target job next : String} {back : List String}

theorem Context.dependencyPath_reverse :
    ctx.DependencyPath source target back.reverse ↔
      ctx.Trail source back ∧ back.head? = some target := by
  constructor
  · rintro ⟨⟨hstart, hend⟩, hdeclared⟩
    rw [List.head?_reverse] at hstart
    rw [List.getLast?_reverse] at hend
    exact ⟨⟨hstart, List.isChain_reverse.mp hdeclared⟩, hend⟩
  · rintro ⟨⟨hstart, hdeclared⟩, hend⟩
    refine ⟨⟨?_, ?_⟩, List.isChain_reverse.mpr hdeclared⟩
    · rw [List.head?_reverse, hstart]
    · rw [List.getLast?_reverse, hend]

/-- Every path is a trail read backwards, which ends with a dependency of the target unless the path is
one job. -/
theorem Context.DependencyPath.trail {path : List String} (h : ctx.DependencyPath source target path)
    (hne : source ≠ target) :
    ∃ last rest, path.reverse = target :: last :: rest ∧ ctx.Trail source (last :: rest) ∧
      last ∈ ctx.dependenciesOf target := by
  obtain ⟨⟨hstart, hdeclared⟩, hhead⟩ :=
    dependencyPath_reverse.mp (show ctx.DependencyPath source target path.reverse.reverse by
      rwa [List.reverse_reverse])
  match htrail : path.reverse with
  | [] =>
      rw [htrail] at hhead
      cases hhead
  | [only] =>
      rw [htrail] at hstart hhead
      cases hstart
      cases hhead
      exact absurd rfl hne
  | first :: last :: rest =>
      rw [htrail] at hstart hdeclared hhead
      cases hhead
      rw [List.isChain_cons_cons] at hdeclared
      rw [List.getLast?_cons_cons] at hstart
      exact ⟨last, rest, rfl, ⟨hstart, hdeclared.2⟩, hdeclared.1⟩

theorem Context.Trail.cons (h : ctx.Trail source (job :: back)) (hnext : job ∈ ctx.dependenciesOf next) :
    ctx.Trail source (next :: job :: back) where
  start := by rw [List.getLast?_cons_cons, h.start]
  declared := List.isChain_cons_cons.mpr ⟨hnext, h.declared⟩

/-- The dependents of a job are the jobs that declare it. -/
theorem mem_dependents (names : ctx.dependencies.names.Nodup) :
    next ∈ dependents ctx.dependencies job ↔ job ∈ ctx.dependenciesOf next := by
  unfold dependents Context.dependenciesOf
  constructor
  · intro h
    obtain ⟨⟨id, on⟩, hentry, h⟩ := List.mem_flatMap.mp h
    obtain ⟨other, hother, heq⟩ := List.mem_map.mp h
    obtain ⟨hon, hsame⟩ := List.mem_filter.mp hother
    rw [beq_iff_eq] at hsame
    have hid : id = next := heq
    subst hid hsame
    rw [Entries.get?_of_mem names hentry, Option.getD_some]
    exact hon
  · intro h
    cases hget : ctx.dependencies.get? next with
    | none =>
        rw [hget] at h
        exact absurd h List.not_mem_nil
    | some on =>
        rw [hget, Option.getD_some] at h
        refine List.mem_flatMap.mpr ⟨(next, on), Entries.mem_of_get? hget, ?_⟩
        exact List.mem_map.mpr ⟨job, List.mem_filter.mpr ⟨h, by simp⟩, rfl⟩

/-- Only jobs with an entry depend on anything. -/
theorem mem_names_of_mem_dependents {dependencies : Entries (List String)}
    (h : next ∈ dependents dependencies job) : next ∈ dependencies.names := by
  obtain ⟨⟨id, on⟩, hentry, h⟩ := List.mem_flatMap.mp h
  obtain ⟨_, -, rfl⟩ := List.mem_map.mp h
  exact Entries.mem_names_of_mem hentry

end

/-! ## The course of a search -/

/-- The dependents of a job that were not in the queue yet, each once. -/
def freshDependents (dependencies : Entries (List String)) (visited : List String) (job : String) :
    List String :=
  (distinct (dependents dependencies job)).filter fun next => !visited.contains next

/-- A search that ends by itself, after so many paths taken from the queue, and what it finds. -/
inductive SearchEnds (dependencies : Entries (List String)) (target : String) :
    Nat → List (List String) → List String → Option (List String) → Prop where
  | exhausted {visited : List String} : SearchEnds dependencies target 0 [] visited none
  | found {path : List String} {queue : List (List String)} {visited : List String}
      (htarget : target ∈ dependents dependencies (path.headD "")) :
      SearchEnds dependencies target 1 (path :: queue) visited (some (target :: path).reverse)
  | taken {rounds : Nat} {path : List String} {queue : List (List String)} {visited : List String}
      {chain : Option (List String)}
      (htarget : target ∉ dependents dependencies (path.headD ""))
      (rest : SearchEnds dependencies target rounds
        (queue ++ (freshDependents dependencies visited (path.headD "")).map (· :: path))
        (visited ++ freshDependents dependencies visited (path.headD "")) chain) :
      SearchEnds dependencies target (rounds + 1) (path :: queue) visited chain

section

variable {dependencies : Entries (List String)} {target : String} {rounds : Nat}
variable {queue : List (List String)} {visited : List String} {chain : Option (List String)}

/-- Given at least the rounds it takes, the search finds what it ends with. -/
theorem SearchEnds.chainSearch_eq (h : SearchEnds dependencies target rounds queue visited chain)
    {limit : Nat} (hlimit : rounds ≤ limit) :
    chainSearch dependencies target limit queue visited = chain := by
  induction h generalizing limit with
  | exhausted => cases limit <;> rfl
  | found htarget =>
      obtain ⟨left, rfl⟩ := Nat.exists_eq_add_of_le' hlimit
      unfold chainSearch
      simp only
      rw [if_pos (List.contains_iff_mem.mpr htarget)]
  | taken htarget rest ih =>
      obtain ⟨left, rfl⟩ := Nat.exists_eq_add_of_le' (Nat.le_of_add_left_le hlimit)
      unfold chainSearch
      simp only
      rw [if_neg (by simpa using htarget)]
      exact ih (by omega)

theorem nodup_freshDependents (visited : List String) (job : String) :
    (freshDependents dependencies visited job).Nodup :=
  (nodup_addNew List.nodup_nil).filter _

theorem mem_freshDependents {next job : String} :
    next ∈ freshDependents dependencies visited job ↔
      next ∈ dependents dependencies job ∧ next ∉ visited := by
  unfold freshDependents
  rw [List.mem_filter, mem_distinct]
  simp

/-- The search ends: every job enters the queue once, and there are no more of them than jobs with an
entry, and the source. -/
theorem exists_searchEnds {source : String} {room : Nat} (once : visited.Nodup)
    (known : ∀ job ∈ visited, job ∈ source :: dependencies.names)
    (hroom : dependencies.length + 1 - visited.length + queue.length ≤ room) :
    ∃ rounds ≤ room, ∃ chain, SearchEnds dependencies target rounds queue visited chain := by
  induction room generalizing queue visited with
  | zero =>
      have hempty : queue = [] := List.eq_nil_of_length_eq_zero (by omega)
      subst hempty
      exact ⟨0, Nat.le_refl 0, none, .exhausted⟩
  | succ room ih =>
      cases queue with
      | nil => exact ⟨0, Nat.zero_le _, none, .exhausted⟩
      | cons path queue =>
          by_cases htarget : target ∈ dependents dependencies (path.headD "")
          · exact ⟨1, by omega, _, .found htarget⟩
          · have onceMore : (visited ++ freshDependents dependencies visited (path.headD "")).Nodup := by
              refine List.nodup_append.mpr ⟨once, nodup_freshDependents visited _, ?_⟩
              rintro job hold next hfresh rfl
              exact (mem_freshDependents.mp hfresh).2 hold
            have knownMore : ∀ job ∈ visited ++ freshDependents dependencies visited (path.headD ""),
                job ∈ source :: dependencies.names := by
              intro job hjob
              rcases List.mem_append.mp hjob with hold | hfresh
              · exact known job hold
              · exact List.mem_cons_of_mem source
                  (mem_names_of_mem_dependents (mem_freshDependents.mp hfresh).1)
            have hfits := (List.subperm_of_subset onceMore knownMore).length_le
            obtain ⟨rounds, hrounds, chain, hends⟩ : ∃ rounds ≤ room, ∃ chain,
                SearchEnds dependencies target rounds
                  (queue ++ (freshDependents dependencies visited (path.headD "")).map (· :: path))
                  (visited ++ freshDependents dependencies visited (path.headD "")) chain := by
              refine ih onceMore knownMore ?_
              simp only [Entries.names, List.length_append, List.length_map, List.length_cons]
                at hfits hroom ⊢
              omega
            exact ⟨rounds + 1, by omega, chain, .taken htarget hends⟩

end

/-! ## Shortest paths -/

/-- A search in its course: `taken` are the paths that were taken from the queue, in their order. -/
structure SearchState (ctx : Context) (source target : String) (taken queue : List (List String))
    (visited : List String) : Prop where
  trails : ∀ path ∈ taken ++ queue, ctx.Trail source path ∧ path.Nodup ∧ target ∉ path
  known : ∀ path ∈ taken ++ queue, ∀ job ∈ path, job ∈ visited
  queued : ∀ job ∈ visited, ∃ path ∈ taken ++ queue, path.head? = some job
  /-- the paths stand in order of length -/
  order : (taken ++ queue).Pairwise fun path later => path.length ≤ later.length
  /-- those in the queue differ by one job at most -/
  level : ∀ path ∈ queue, ∀ later ∈ queue, later.length ≤ path.length + 1
  started : [source] ∈ taken ++ queue
  /-- the dependents of a job that was taken have paths -/
  expanded : ∀ path ∈ taken, ∀ job next, path.head? = some job → job ∈ ctx.dependenciesOf next →
    next ≠ target ∧ ∃ longer ∈ taken ++ queue, longer.head? = some next ∧
      longer.length ≤ path.length + 1

namespace SearchState

variable {ctx : Context} {source target : String} {taken queue : List (List String)}
variable {visited : List String} {path : List String}

theorem start (ctx : Context) (hne : source ≠ target) :
    SearchState ctx source target [] [[source]] [source] where
  trails path hpath := by
    rw [List.nil_append, List.mem_singleton] at hpath
    subst hpath
    exact ⟨⟨rfl, List.isChain_singleton source⟩, by simp, by simpa using hne.symm⟩
  known path hpath job hjob := by
    rw [List.nil_append, List.mem_singleton] at hpath
    exact hpath ▸ hjob
  queued job hjob := by
    rw [List.mem_singleton] at hjob
    exact ⟨[source], by simp, by simp [hjob]⟩
  order := by simp
  level path hpath later hlater := by
    rw [List.mem_singleton] at hpath hlater
    rw [hpath, hlater]
    exact Nat.le_succ _
  started := by simp
  expanded path hpath := absurd hpath List.not_mem_nil

/-- The job at the end of a trail has a path that is no longer than the trail, or the queue holds a path
that is shorter. -/
theorem reached (state : SearchState ctx source target taken queue visited) {job : String}
    {rest : List String} (trail : ctx.Trail source (job :: rest)) :
    (∃ path ∈ taken ++ queue, path.head? = some job ∧ path.length ≤ (job :: rest).length) ∨
      ∃ path ∈ queue, path.length < (job :: rest).length := by
  induction rest generalizing job with
  | nil =>
      have hsource : job = source := Option.some.inj trail.start
      exact Or.inl ⟨[source], state.started, by rw [hsource]; rfl, Nat.le_refl _⟩
  | cons earlier rest ih =>
      obtain ⟨hstart, hdeclared⟩ := trail
      rw [List.isChain_cons_cons] at hdeclared
      rw [List.getLast?_cons_cons] at hstart
      have hlength : (job :: earlier :: rest).length = (earlier :: rest).length + 1 := rfl
      rcases ih ⟨hstart, hdeclared.2⟩ with ⟨path, hpath, hhead, hle⟩ | ⟨path, hpath, hlt⟩
      · rcases List.mem_append.mp hpath with htaken | hqueue
        · obtain ⟨-, longer, hlonger, hend, hlonger_le⟩ :=
            state.expanded path htaken earlier job hhead hdeclared.1
          exact Or.inl ⟨longer, hlonger, hend, by omega⟩
        · exact Or.inr ⟨path, hqueue, by omega⟩
      · exact Or.inr ⟨path, hpath, by omega⟩

/-- The queue holds a path that is no longer than any trail to a dependency of the target. -/
theorem exists_queued (state : SearchState ctx source target taken queue visited) {last : String}
    {rest : List String} (trail : ctx.Trail source (last :: rest))
    (htarget : last ∈ ctx.dependenciesOf target) :
    ∃ path ∈ queue, path.length ≤ (last :: rest).length := by
  rcases state.reached trail with ⟨path, hpath, hhead, hle⟩ | ⟨path, hpath, hlt⟩
  · rcases List.mem_append.mp hpath with htaken | hqueue
    · exact absurd rfl (state.expanded path htaken last target hhead htarget).1
    · exact ⟨path, hqueue, hle⟩
  · exact ⟨path, hpath, Nat.le_of_lt hlt⟩

/-- The first path of the queue is a shortest one in it. -/
theorem length_le_of_mem_queue (state : SearchState ctx source target taken (path :: queue) visited)
    {later : List String} (hlater : later ∈ path :: queue) : path.length ≤ later.length := by
  rcases List.mem_cons.mp hlater with rfl | hlater
  · exact Nat.le_refl _
  · exact (List.pairwise_cons.mp (List.pairwise_append.mp state.order).2.1).1 later hlater

/-- Every path has a last job. -/
theorem eq_headD_cons (state : SearchState ctx source target taken queue visited)
    (hpath : path ∈ taken ++ queue) : path = path.headD "" :: path.tail := by
  cases path with
  | nil => exact absurd (state.trails [] hpath).1.start (by simp)
  | cons job rest => rfl

/-- Taking a path whose job has no dependent that is the target leads to another such state. -/
theorem take (state : SearchState ctx source target taken (path :: queue) visited)
    (names : ctx.dependencies.names.Nodup)
    (htarget : target ∉ dependents ctx.dependencies (path.headD "")) :
    SearchState ctx source target (taken ++ [path])
      (queue ++ (freshDependents ctx.dependencies visited (path.headD "")).map (· :: path))
      (visited ++ freshDependents ctx.dependencies visited (path.headD "")) := by
  have hmem : path ∈ taken ++ path :: queue := by simp
  have hpath := state.eq_headD_cons hmem
  obtain ⟨trail, hnodup, hnoTarget⟩ := state.trails path hmem
  generalize hfresh : freshDependents ctx.dependencies visited (path.headD "") = fresh
  have mem_fresh : ∀ next, next ∈ fresh ↔ path.headD "" ∈ ctx.dependenciesOf next ∧ next ∉ visited := by
    intro next
    rw [← hfresh, mem_freshDependents, mem_dependents names]
  have happend : taken ++ [path] ++ (queue ++ fresh.map (· :: path)) =
      (taken ++ path :: queue) ++ fresh.map (· :: path) := by simp
  have mem_new : ∀ longer ∈ fresh.map (· :: path), ∃ next ∈ fresh, longer = next :: path := by
    intro longer hlonger
    obtain ⟨next, hnext, rfl⟩ := List.mem_map.mp hlonger
    exact ⟨next, hnext, rfl⟩
  -- A path is never more than one job longer than the one that is taken.
  have hlevel : ∀ later ∈ taken ++ path :: queue, later.length ≤ path.length + 1 := by
    intro later hlater
    rcases List.mem_append.mp hlater with htaken | hqueue
    · exact Nat.le_succ_of_le ((List.pairwise_append.mp state.order).2.2 later htaken path
        List.mem_cons_self)
    · exact state.level path List.mem_cons_self later hqueue
  constructor
  · rw [happend]
    intro longer hlonger
    rcases List.mem_append.mp hlonger with hold | hnew
    · exact state.trails longer hold
    · obtain ⟨next, hnext, rfl⟩ := mem_new longer hnew
      obtain ⟨hdepends, hunvisited⟩ := (mem_fresh next).mp hnext
      refine ⟨?_, List.nodup_cons.mpr ⟨?_, hnodup⟩, ?_⟩
      · rw [hpath] at trail ⊢
        exact trail.cons hdepends
      · exact fun hmemPath => hunvisited (state.known path hmem next hmemPath)
      · rw [List.mem_cons, not_or]
        refine ⟨?_, hnoTarget⟩
        rintro rfl
        exact htarget ((mem_dependents names).mpr hdepends)
  · rw [happend]
    intro longer hlonger job hjob
    rcases List.mem_append.mp hlonger with hold | hnew
    · exact List.mem_append_left _ (state.known longer hold job hjob)
    · obtain ⟨next, hnext, rfl⟩ := mem_new longer hnew
      rcases List.mem_cons.mp hjob with rfl | hjob
      · exact List.mem_append_right _ hnext
      · exact List.mem_append_left _ (state.known path hmem job hjob)
  · rw [happend]
    intro job hjob
    rcases List.mem_append.mp hjob with hold | hnew
    · obtain ⟨earlier, hearlier, hhead⟩ := state.queued job hold
      exact ⟨earlier, List.mem_append_left _ hearlier, hhead⟩
    · exact ⟨job :: path, List.mem_append_right _ (List.mem_map.mpr ⟨job, hnew, rfl⟩), rfl⟩
  · rw [happend]
    refine List.pairwise_append.mpr ⟨state.order, ?_, ?_⟩
    · refine List.pairwise_of_forall_mem_list ?_
      intro longer hlonger later hlater
      obtain ⟨next, -, rfl⟩ := mem_new longer hlonger
      obtain ⟨other, -, rfl⟩ := mem_new later hlater
      exact Nat.le_refl _
    · intro earlier hearlier longer hlonger
      obtain ⟨next, -, rfl⟩ := mem_new longer hlonger
      exact hlevel earlier hearlier
  · intro longer hlonger later hlater
    have hlong : path.length ≤ longer.length := by
      rcases List.mem_append.mp hlonger with hold | hnew
      · exact state.length_le_of_mem_queue (List.mem_cons_of_mem path hold)
      · obtain ⟨next, -, rfl⟩ := mem_new longer hnew
        exact Nat.le_succ _
    have hlate : later.length ≤ path.length + 1 := by
      rcases List.mem_append.mp hlater with hold | hnew
      · exact hlevel later (by simp [hold])
      · obtain ⟨next, -, rfl⟩ := mem_new later hnew
        exact Nat.le_refl _
    omega
  · rw [happend]
    exact List.mem_append_left _ state.started
  · rw [happend]
    intro earlier hearlier job next hhead hdepends
    rcases List.mem_append.mp hearlier with htaken | hself
    · obtain ⟨hne, longer, hlonger, hend, hle⟩ := state.expanded earlier htaken job next hhead hdepends
      exact ⟨hne, longer, List.mem_append_left _ hlonger, hend, hle⟩
    · rw [List.mem_singleton] at hself
      subst hself
      have hjob : job = earlier.headD "" := by
        rw [hpath] at hhead
        exact (Option.some.inj hhead).symm
      subst hjob
      refine ⟨?_, ?_⟩
      · rintro rfl
        exact htarget ((mem_dependents names).mpr hdepends)
      · by_cases hvisited : next ∈ visited
        · obtain ⟨longer, hlonger, hend⟩ := state.queued next hvisited
          exact ⟨longer, List.mem_append_left _ hlonger, hend, hlevel longer hlonger⟩
        · refine ⟨next :: earlier, List.mem_append_right _ ?_, rfl, Nat.le_refl _⟩
          exact List.mem_map.mpr ⟨next, (mem_fresh next).mpr ⟨hdepends, hvisited⟩, rfl⟩

end SearchState

/-- A path with as few jobs as possible, and no job twice. -/
structure Context.ShortestPath (ctx : Context) (source target : String) (path : List String) : Prop where
  declared : ctx.DependencyPath source target path
  nodup : path.Nodup
  least : ∀ other, ctx.DependencyPath source target other → path.length ≤ other.length

/-- What a search should find: a shortest path, or nothing where there is no path. -/
def Context.SearchAnswer (ctx : Context) (source target : String) : Option (List String) → Prop
  | some path => ctx.ShortestPath source target path
  | none => ∀ path, ¬ ctx.DependencyPath source target path

/-- What a search finds is a shortest path, and it finds one when there is a path at all. -/
theorem SearchEnds.shortest {ctx : Context} {source target : String} {rounds : Nat}
    {taken queue : List (List String)} {visited : List String} {chain : Option (List String)}
    (names : ctx.dependencies.names.Nodup) (hne : source ≠ target)
    (ends : SearchEnds ctx.dependencies target rounds queue visited chain)
    (state : SearchState ctx source target taken queue visited) :
    ctx.SearchAnswer source target chain := by
  induction ends generalizing taken with
  | exhausted =>
      intro path hpath
      obtain ⟨last, rest, -, htrail, htarget⟩ := hpath.trail hne
      obtain ⟨queued, hqueued, -⟩ := state.exists_queued htrail htarget
      exact absurd hqueued List.not_mem_nil
  | @found path queue visited htarget =>
      have hmem : path ∈ taken ++ path :: queue := by simp
      have hpath := state.eq_headD_cons hmem
      obtain ⟨htrail, hnodup, hnoTarget⟩ := state.trails path hmem
      have honce : (target :: path).Nodup := List.nodup_cons.mpr ⟨hnoTarget, hnodup⟩
      refine ⟨?_, List.pairwise_reverse.mpr (honce.imp Ne.symm), ?_⟩
      · refine Context.dependencyPath_reverse.mpr ⟨?_, rfl⟩
        rw [hpath] at htrail ⊢
        exact htrail.cons ((mem_dependents names).mp htarget)
      · intro other hother
        obtain ⟨last, rest, hreverse, hotherTrail, hlast⟩ := hother.trail hne
        obtain ⟨queued, hqueued, hle⟩ := state.exists_queued hotherTrail hlast
        have hshort := state.length_le_of_mem_queue hqueued
        have hlength : other.length = (last :: rest).length + 1 := by
          rw [← List.length_reverse, hreverse, List.length_cons]
        rw [List.length_reverse, List.length_cons]
        omega
  | taken htarget rest ih => exact ih (state.take names htarget)

/-! ## The chain between two jobs -/

section

variable {ctx : Context} {source target : String}

/-- A job depends on another one, directly or with one job between them, exactly when a path of at most
three jobs leads there. -/
theorem Context.dependsOn_iff (hne : source ≠ target) :
    ctx.dependsOn target source = true ↔
      ∃ path, ctx.DependencyPath source target path ∧ path.length ≤ 3 := by
  have hdepends : ctx.dependsOn target source = true ↔ source ∈ ctx.dependenciesOf target ∨
      ∃ between ∈ ctx.dependenciesOf target, source ∈ ctx.dependenciesOf between := by
    unfold dependsOn
    rw [Bool.or_eq_true, List.contains_iff_mem, List.any_eq_true]
    simp only [List.contains_iff_mem]
  rw [hdepends]
  constructor
  · rintro (hdirect | ⟨between, hbetween, hsource⟩)
    · exact ⟨[source, target], ⟨⟨rfl, rfl⟩, List.isChain_pair.mpr hdirect⟩, by simp⟩
    · refine ⟨[source, between, target], ⟨⟨rfl, rfl⟩, ?_⟩, by simp⟩
      exact List.isChain_cons_cons.mpr ⟨hsource, List.isChain_pair.mpr hbetween⟩
  · rintro ⟨path, hpath, hlength⟩
    obtain ⟨last, rest, hreverse, htrail, hlast⟩ := hpath.trail hne
    have hrest : rest.length ≤ 1 := by
      rw [← List.length_reverse, hreverse, List.length_cons, List.length_cons] at hlength
      omega
    match rest, htrail with
    | [], htrail =>
        have hsource : last = source := Option.some.inj htrail.start
        exact Or.inl (hsource ▸ hlast)
    | [first], htrail =>
        have hsource : first = source := Option.some.inj htrail.start
        have hdeclared := List.isChain_pair.mp htrail.declared
        exact Or.inr ⟨last, hlast, hsource ▸ hdeclared⟩
    | _ :: _ :: _, _ => simp at hrest

/-- The search between two jobs ends by itself within the rounds it is given, and the chain is what it
finds. -/
theorem exists_search (ctx : Context) (hne : source ≠ target) :
    ∃ rounds ≤ ctx.dependencies.length + 1, ∃ chain,
      SearchEnds ctx.dependencies target rounds [[source]] [source] chain ∧
      jobChain ctx.dependencies source target = chain.getD [source, target] := by
  have known : ∀ job ∈ [source], job ∈ source :: ctx.dependencies.names := by
    intro job hjob
    rw [List.mem_singleton.mp hjob]
    exact List.mem_cons_self
  obtain ⟨rounds, hrounds, chain, hends⟩ : ∃ rounds ≤ ctx.dependencies.length + 1, ∃ chain,
      SearchEnds ctx.dependencies target rounds [[source]] [source] chain :=
    exists_searchEnds (by simp) known (by simp)
  refine ⟨rounds, hrounds, chain, hends, ?_⟩
  have hsame : (source == target) = false := beq_false_of_ne hne
  unfold jobChain
  rw [hsame, hends.chainSearch_eq hrounds]
  rfl

/-- For every map of declared dependencies and two different jobs, the search for a chain ends; the chain
is a shortest path along declared dependencies where there is one, and the two jobs alone where there is
none; and the target depends on the source exactly when there is a path with at most one job between
them.  The chain of a job with itself is that job. -/
theorem jobChain_shortest (names : ctx.dependencies.names.Nodup) (source target : String) :
    (source = target → jobChain ctx.dependencies source target = [source]) ∧
    (source ≠ target →
      (∃ rounds ≤ ctx.dependencies.length + 1, ∃ chain,
        SearchEnds ctx.dependencies target rounds [[source]] [source] chain ∧
        jobChain ctx.dependencies source target = chain.getD [source, target]) ∧
      ((∃ path, ctx.DependencyPath source target path) →
        ctx.ShortestPath source target (jobChain ctx.dependencies source target)) ∧
      ((∀ path, ¬ ctx.DependencyPath source target path) →
        jobChain ctx.dependencies source target = [source, target]) ∧
      (ctx.dependsOn target source = true ↔
        ∃ path, ctx.DependencyPath source target path ∧ path.length ≤ 3)) := by
  constructor
  · rintro rfl
    unfold jobChain
    rw [beq_self_eq_true]
    rfl
  · intro hne
    obtain ⟨rounds, hrounds, chain, hends, hchain⟩ := exists_search ctx hne
    have hanswer := hends.shortest names hne (SearchState.start ctx hne)
    refine ⟨⟨rounds, hrounds, chain, hends, hchain⟩, ?_, ?_, Context.dependsOn_iff hne⟩
    · rintro ⟨path, hpath⟩
      cases chain with
      | none => exact absurd hpath (hanswer path)
      | some found => rw [hchain]; exact hanswer
    · intro hnone
      cases chain with
      | none => exact hchain
      | some found => exact absurd hanswer.declared (hnone found)

end

/-! ### Dependencies in a tangle -/

/-- Dependencies with a cycle, a job that depends on itself, and one on a job that does not exist. -/
def tangledContext : Context where
  workflow := []
  file := "ci.yml"
  jobs := []
  terraformSteps := []
  helmSteps := []
  dependencies := [("infra", ["infra", "ghost"]), ("build", ["test", "infra"]), ("test", ["build"]),
    ("deploy", ["test", "build"])]

/-- The chain leaves out the job that is on a cycle only. -/
theorem jobChain_shortest_tangled :
    tangledContext.dependencies.names.Nodup ∧
      tangledContext.ShortestPath "infra" "deploy"
        (jobChain tangledContext.dependencies "infra" "deploy") ∧
      jobChain tangledContext.dependencies "infra" "deploy" = ["infra", "build", "deploy"] := by
  have names : tangledContext.dependencies.names.Nodup := by decide
  obtain ⟨-, different⟩ := jobChain_shortest names "infra" "deploy"
  obtain ⟨-, shortest, -, -⟩ := different (by decide)
  refine ⟨names, shortest ⟨["infra", "build", "deploy"], ⟨rfl, rfl⟩, ?_⟩, by decide⟩
  exact List.isChain_cons_cons.mpr ⟨by decide, List.isChain_pair.mpr (by decide)⟩

end DeployTrace
