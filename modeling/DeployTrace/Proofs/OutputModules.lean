/-
  DeployTrace/Proofs/OutputModules.lean --- the module that a feed's output is taken from.

  WHAT THIS FILE IS FOR.  Several modules may declare an output of one name.  A step says in which of them
  it works, and a feed should start from the output of that one.  The choice compares the ends of paths
  after dots and slashes at both ends of the directory are gone, so another module whose path only ends
  alike is taken if it stands first:

      legacy-network, network      A step in `network` takes its output from `legacy-network`.

  What holds (`outputNode?_of_module`): if some node declares the output in the module of the step, the
  first one whose module's path ends with the directory is taken.  It is a node of that module, or it
  stands before all of those.
-/
import DeployTrace.Proofs.Feeds
import DeployTrace.Proofs.Stripping

set_option autoImplicit false

namespace DeployTrace

open Text

/-! ## Directories and modules -/

/-- A path without what leads to the current directory. -/
def withoutDots : Chars → Chars
  | '.' :: '/' :: rest => withoutDots rest
  | path => path

/-- The module that a step works in: its directory as paths of modules are written. -/
def moduleOf (dir : String) : String := String.ofList (dropEndWhile (· == '/') (withoutDots dir.toList))

/-- The path of the module of a node, empty when it is not known. -/
def InfraNode.modulePath (n : InfraNode) : String := ((n.facts.field? "modulePath").bind Tree.text?).getD ""

/-- The module of a node is a text, if it is known. -/
def InfraNode.HasTextPath (n : InfraNode) : Prop :=
  ∀ value ∈ n.facts.field? "modulePath", ∃ path, value = .text path

/-- A node declares an output, and the path of its module ends so. -/
def InfraNode.EndsLike (name tail : String) (n : InfraNode) : Prop :=
  declaresOutput name n = true ∧ tail.toList <:+ n.modulePath.toList

theorem exists_withoutDots (path : Chars) : ∃ dots, path = dots ++ withoutDots path ∧
    ∀ d ∈ dots, ['.', '/'].contains d = true := by
  fun_induction withoutDots path with
  | case1 rest ih =>
      obtain ⟨dots, hrest, hdots⟩ := ih
      exact ⟨'.' :: '/' :: dots, congrArg _ (congrArg _ hrest),
        List.forall_mem_cons.mpr ⟨by decide, List.forall_mem_cons.mpr ⟨by decide, hdots⟩⟩⟩
  | case2 path => exact ⟨[], rfl, by simp⟩

/-- Where the path of a module does not end with a dot, the text that paths are compared with is an end of
it. -/
theorem stripOf_suffix {dir : String} (hlast : ∃ c ∈ (moduleOf dir).toList.getLast?, c ≠ '.') :
    stripOf ['.', '/'] dir ≠ "" ∧ (stripOf ['.', '/'] dir).toList <:+ (moduleOf dir).toList := by
  obtain ⟨last, hget, hdot⟩ := hlast
  have hslash : (last == '/') = false := by
    unfold moduleOf at hget
    rw [String.toList_ofList] at hget
    exact getLast?_dropEndWhile last hget
  have hsolid : ['.', '/'].contains last = false := by
    simp [hdot, beq_eq_false_iff_ne.mp hslash]
  obtain ⟨init, hmodule⟩ := List.getLast?_eq_some_iff.mp hget
  obtain ⟨dots, hdots, hdotsAll⟩ := exists_withoutDots dir.toList
  obtain ⟨slashes, hslashes, hslashesAll⟩ := exists_dropEndWhile (p := (· == '/')) (withoutDots dir.toList)
  have hdir : dir.toList = dots ++ (init ++ last :: slashes) := by
    unfold moduleOf at hmodule
    rw [String.toList_ofList] at hmodule
    rw [hmodule, List.append_assoc, List.singleton_append] at hslashes
    rw [hdots, hslashes]
  have hstripped : (stripOf ['.', '/'] dir).toList = init.dropWhile (['.', '/'].contains ·) ++ [last] := by
    unfold stripOf stripWhile
    rw [String.toList_ofList, hdir, List.dropWhile_append_of_pos hdotsAll, dropWhile_append_cons hsolid,
      dropEndWhile_append_cons hsolid]
    intro d hd
    rw [beq_iff_eq.mp (hslashesAll d hd)]
    decide
  constructor
  · intro hnil
    rw [hnil] at hstripped
    simp at hstripped
  · rw [hstripped, hmodule]
    obtain ⟨front, hfront⟩ := List.dropWhile_suffix (['.', '/'].contains ·) (l := init)
    exact ⟨front, by rw [← List.append_assoc, hfront]⟩

/-! ## The choice of a node -/

section

variable {nodes : List InfraNode} {n : InfraNode} {name dir : String}

theorem InfraNode.HasTextPath.moduleEndsWith (h : n.HasTextPath) (tail : String) :
    moduleEndsWith tail n = .ok (endsWith n.modulePath tail) := by
  unfold DeployTrace.moduleEndsWith InfraNode.modulePath
  cases hfact : n.facts.field? "modulePath" with
  | none => rfl
  | some value =>
      obtain ⟨path, rfl⟩ := h value hfact
      rfl

/-- A search with a check that always answers is a search with its answers. -/
theorem findNode?_eq_find? {check : InfraNode → Except LinkFault Bool} {answer : InfraNode → Bool}
    (h : ∀ n ∈ nodes, check n = .ok (answer n)) : findNode? check nodes = .ok (nodes.find? answer) := by
  induction nodes with
  | nil => rfl
  | cons n rest ih =>
      obtain ⟨hn, hrest⟩ := List.forall_mem_cons.mp h
      unfold findNode?
      rw [hn, List.find?_cons]
      cases answer n with
      | true => rfl
      | false => exact ih hrest

/-- Where the end of a directory's path is known, the first node that declares the output and whose path ends
so is taken. -/
theorem outputNode?_eq_find? {f : Flow} (paths : ∀ n ∈ nodes, n.HasTextPath)
    (hdir : f.source.workingDir = some dir) (hne : stripOf ['.', '/'] dir ≠ "")
    (hsome : ∃ n ∈ nodes, n.EndsLike f.source.name (stripOf ['.', '/'] dir)) :
    ∃ before n after, nodes = before ++ n :: after ∧ outputNode? nodes f = .ok (some n) ∧
      n.EndsLike f.source.name (stripOf ['.', '/'] dir) ∧
      ∀ a ∈ before, ¬ a.EndsLike f.source.name (stripOf ['.', '/'] dir) := by
  have hiff : ∀ n : InfraNode, (declaresOutput f.source.name n &&
      endsWith n.modulePath (stripOf ['.', '/'] dir)) = true ↔
        n.EndsLike f.source.name (stripOf ['.', '/'] dir) := by
    intro n
    unfold InfraNode.EndsLike endsWith
    rw [Bool.and_eq_true, List.isSuffixOf_iff_suffix]
  have hsearch : findNode? (moduleEndsWith (stripOf ['.', '/'] dir))
      (nodes.filter (declaresOutput f.source.name)) = .ok (nodes.find? fun n =>
        declaresOutput f.source.name n && endsWith n.modulePath (stripOf ['.', '/'] dir)) := by
    rw [findNode?_eq_find? fun n hn => (paths n (List.mem_filter.mp hn).1).moduleEndsWith _, List.find?_filter]
    simp only [Bool.decide_eq_true, Bool.decide_and]
  obtain ⟨m, hm, hlike⟩ := hsome
  have hfound : (nodes.find? fun n => declaresOutput f.source.name n &&
      endsWith n.modulePath (stripOf ['.', '/'] dir)).isSome = true :=
    List.find?_isSome.mpr ⟨m, hm, (hiff m).mpr hlike⟩
  obtain ⟨n, hn⟩ := Option.isSome_iff_exists.mp hfound
  obtain ⟨hmatches, before, after, hsplit, hbefore⟩ := List.find?_eq_some_iff_append.mp hn
  refine ⟨before, n, after, hsplit, ?_, (hiff n).mp hmatches, fun a ha hlike => ?_⟩
  · have hempty : (stripOf ['.', '/'] dir).isEmpty = false := by
      rw [← Bool.not_eq_true, String.isEmpty_iff]
      exact hne
    unfold outputNode?
    simp only [hdir, Option.getD_some, hempty, Bool.false_eq_true, if_false, hsearch, hn]
    rfl
  · have hnot := hbefore a ha
    rw [(hiff a).mpr hlike] at hnot
    cases hnot

end

/-- Where a node declares the output of a flow in the module that the flow's step works in, the node that is
taken is the first that declares the output and has a path which ends with the directory.  It is that
node, or it stands before it. -/
theorem outputNode?_of_module {nodes : List InfraNode} {f : Flow} {dir : String} {m : InfraNode}
    (paths : ∀ n ∈ nodes, n.HasTextPath) (hdir : f.source.workingDir = some dir)
    (hlast : ∃ c ∈ (moduleOf dir).toList.getLast?, c ≠ '.') (hm : m ∈ nodes)
    (hdeclares : declaresOutput f.source.name m = true) (hmodule : m.modulePath = moduleOf dir) :
    ∃ before n after, nodes = before ++ n :: after ∧ outputNode? nodes f = .ok (some n) ∧
      n.EndsLike f.source.name (stripOf ['.', '/'] dir) ∧
      (∀ a ∈ before, ¬ a.EndsLike f.source.name (stripOf ['.', '/'] dir)) ∧ (n = m ∨ m ∈ after) := by
  obtain ⟨hne, hsuffix⟩ := stripOf_suffix hlast
  have hlike : m.EndsLike f.source.name (stripOf ['.', '/'] dir) := ⟨hdeclares, hmodule ▸ hsuffix⟩
  obtain ⟨before, n, after, hsplit, hchosen, hn, hbefore⟩ := outputNode?_eq_find? paths hdir hne ⟨m, hm, hlike⟩
  refine ⟨before, n, after, hsplit, hchosen, hn, hbefore, ?_⟩
  rw [hsplit] at hm
  rcases List.mem_append.mp hm with hm | hm
  · exact absurd hlike (hbefore m hm)
  · exact (List.mem_cons.mp hm).imp Eq.symm id

/-! ### Modules whose paths end alike -/

/-- The node of the output `vpc` of a module. -/
def vpcOf (path : String) : InfraNode where
  id := "output-" ++ path
  kind := .terraformOutput
  name := "vpc"
  filePath := path ++ "/outputs.tf"
  facts := [(.text "modulePath", .text path), (.text "outputName", .text "vpc"), (.text "sensitive", .bool false)]

/-- A flow from the output `vpc` that a step in a directory prints. -/
def vpcFlow (dir : String) : Flow where
  id := "flow"
  source := { name := "vpc", jobId := "deploy", stepIndex := 0, command := "output", workingDir := some dir }
  target := { path := "vpc", jobId := "deploy", stepIndex := 1, command := "upgrade", channel := .setFlag }
  pattern := .outputToEnv
  confidence := .int 77
  level := .high
  evidence := []
  setting := { workflowFile := "ci.yml", jobChain := ["deploy"] }

theorem hasTextPath_vpcOf (path : String) : (vpcOf path).HasTextPath := by
  intro value hvalue
  obtain rfl : Tree.text path = value := Option.some.inj hvalue
  exact ⟨path, rfl⟩

/-- The module of the node that is taken. -/
def takenPath (taken : Except LinkFault (Option InfraNode)) : Option String :=
  (taken.toOption.bind id).map (·.modulePath)

/-- Modules that declare one output, two of them with paths that end alike. -/
def nestedModules : List InfraNode := [vpcOf "modules/dns", vpcOf "live/network", vpcOf "old/live/network"]

/-- A step in one of the two modules takes the output of its own, which stands first. -/
theorem outputNode?_of_module_nested :
    (∀ n ∈ nestedModules, n.HasTextPath) ∧ moduleOf "./live/network/" = "live/network" ∧
      takenPath (outputNode? nestedModules (vpcFlow "./live/network/")) = some "live/network" ∧
      ∃ before n after, nestedModules = before ++ n :: after ∧
        outputNode? nestedModules (vpcFlow "./live/network/") = .ok (some n) ∧
        n.EndsLike "vpc" (stripOf ['.', '/'] "./live/network/") ∧
        (∀ a ∈ before, ¬ a.EndsLike "vpc" (stripOf ['.', '/'] "./live/network/")) ∧
        (n = vpcOf "live/network" ∨ vpcOf "live/network" ∈ after) := by
  have paths : ∀ n ∈ nestedModules, n.HasTextPath := by
    intro n hn
    simp only [nestedModules, List.mem_cons, List.not_mem_nil, or_false] at hn
    rcases hn with rfl | rfl | rfl <;> exact hasTextPath_vpcOf _
  have hmodule : moduleOf "./live/network/" = "live/network" := by decide +kernel
  have hlast : ∃ c ∈ (moduleOf "./live/network/").toList.getLast?, c ≠ '.' := by
    rw [hmodule]
    exact ⟨'k', by decide, by decide⟩
  have hmem : vpcOf "live/network" ∈ nestedModules := List.mem_cons_of_mem _ List.mem_cons_self
  exact ⟨paths, hmodule, by decide +kernel,
    outputNode?_of_module paths rfl hlast hmem (by decide +kernel) hmodule.symm⟩

/-- A node of another module may be taken, although one of the step's own module declares the output. -/
theorem outputNode?_of_other_module : ¬ ∀ (nodes : List InfraNode) (f : Flow) (dir : String) (m : InfraNode),
    (∀ n ∈ nodes, n.HasTextPath) → f.source.workingDir = some dir → m ∈ nodes →
      declaresOutput f.source.name m = true → m.modulePath = moduleOf dir →
        ∃ n, outputNode? nodes f = .ok (some n) ∧ n.modulePath = moduleOf dir := by
  intro own
  have paths : ∀ n ∈ [vpcOf "legacy-network", vpcOf "network"], n.HasTextPath := by
    intro n hn
    simp only [List.mem_cons, List.not_mem_nil, or_false] at hn
    rcases hn with rfl | rfl <;> exact hasTextPath_vpcOf _
  have hmem : vpcOf "network" ∈ [vpcOf "legacy-network", vpcOf "network"] :=
    List.mem_cons_of_mem _ List.mem_cons_self
  obtain ⟨n, hn, hpath⟩ := own [vpcOf "legacy-network", vpcOf "network"] (vpcFlow "network") "network"
    (vpcOf "network") paths rfl hmem (by decide +kernel) (by decide +kernel)
  have htaken : takenPath (outputNode? [vpcOf "legacy-network", vpcOf "network"] (vpcFlow "network")) =
      some "legacy-network" := by
    decide +kernel
  rw [hn] at htaken
  have hother : n.modulePath = "legacy-network" := Option.some.inj htaken
  rw [hpath] at hother
  exact absurd hother (by decide +kernel)

end DeployTrace
