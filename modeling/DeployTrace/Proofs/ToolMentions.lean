/-
  DeployTrace/Proofs/ToolMentions.lean --- which mentions of a tool are mentions of its name.

  WHAT THIS FILE IS FOR.  Two places say that a value is reshaped on its way: a feed names the tool, and the
  score of a flow has three points taken off for each tool.  Both look for the name of the tool as a part of
  a text, so that a word that only ends like the name counts as well: `closed `, `used.`  It is shown here
  that nothing else goes wrong.  Where no word hides the name of a tool inside it, a tool that is reported
  or counted stands in some snippet as a name of its own.

  THE ARGUMENT.  A name consists of word characters.  Where it has a word character before it, the two lie
  in one word, and the name begins after the beginning of that word.  The score looks at the snippets put
  together with a blank between them, but a name without blanks that is in such a text is in one of the
  snippets.
-/
import DeployTrace.Link.Feed
import DeployTrace.Proofs.EvidenceOrder

set_option autoImplicit false

namespace DeployTrace

open Text

/-! ## Words and names -/

/-- The words of a text: what is left when it is cut at all other characters. -/
def wordsOf (text : Chars) : List Chars := text.splitOnP fun c => !isWord c

/-- A name stands in a text with no word character before it. -/
def StandsAlone (name text : String) : Prop :=
  ∃ before after, text.toList = before ++ (name.toList ++ after) ∧ ∀ c ∈ before.getLast?, isWord c = false

/-- A name stands in a word of a text, after the beginning of the word. -/
def HiddenIn (name text : String) : Prop := ∃ word ∈ wordsOf text.toList, name.toList <:+: word.tail

theorem standsAlone_iff {name text : String} : StandsAlone name text ↔
    ∃ n ∈ List.range (text.toList.length + 1), name.toList <+: text.toList.drop n ∧
      ((text.toList.take n).getLast?.all fun c => !isWord c) = true := by
  have hall : ∀ o : Option Char, (o.all fun c => !isWord c) = true ↔ ∀ c ∈ o, isWord c = false := by
    intro o
    cases o <;> simp
  simp only [hall]
  constructor
  · rintro ⟨before, after, htext, hbefore⟩
    refine ⟨before.length, ?_, ?_, ?_⟩
    · rw [htext, List.mem_range, List.length_append]
      omega
    · rw [htext, List.drop_left]
      exact List.prefix_append _ _
    · rwa [htext, List.take_left]
  · rintro ⟨n, -, ⟨after, hafter⟩, hbefore⟩
    exact ⟨text.toList.take n, after, by rw [hafter, List.take_append_drop], hbefore⟩

instance (name text : String) : Decidable (StandsAlone name text) := decidable_of_iff _ standsAlone_iff.symm

instance (name text : String) : Decidable (HiddenIn name text) :=
  inferInstanceAs (Decidable (∃ word ∈ wordsOf text.toList, name.toList <:+: word.tail))

/-- Word characters that stand together in a text stand together in one of its words. -/
theorem exists_word_of_infix {part text : Chars} (hpart : ∀ c ∈ part, isWord c = true)
    (h : part <:+: text) : ∃ word ∈ wordsOf text, part <:+: word := by
  by_cases hcut : ∃ c ∈ text, isWord c = false
  · obtain ⟨c, hc, hother⟩ := hcut
    obtain ⟨left, right, htext⟩ := List.append_of_mem hc
    have hwords : wordsOf text = wordsOf left ++ wordsOf right := by
      rw [htext, wordsOf, List.splitOnP_append_cons left right (by simp [hother])]
      rfl
    rw [htext, infix_append_cons_iff] at h
    -- The part does not hold the character at which the text is cut.
    rcases h with hleft | hright | ⟨front, back, heq, -⟩
    · obtain ⟨word, hword, hin⟩ := exists_word_of_infix hpart hleft
      exact ⟨word, hwords ▸ List.mem_append_left _ hword, hin⟩
    · obtain ⟨word, hword, hin⟩ := exists_word_of_infix hpart hright
      exact ⟨word, hwords ▸ List.mem_append_right _ hword, hin⟩
    · have hc := hpart c (heq ▸ List.mem_append_right _ List.mem_cons_self)
      rw [hother] at hc
      exact Bool.noConfusion hc
  · have hone : wordsOf text = [text] := by
      refine List.splitOnP_eq_singleton fun c hc => ?_
      cases hword : isWord c with
      | true => rfl
      | false => exact absurd ⟨c, hc, hword⟩ hcut
    exact ⟨text, hone ▸ List.mem_singleton_self text, h⟩
termination_by text.length
decreasing_by
  · rw [htext, List.length_append]; simp
  · rw [htext, List.length_append]; simp; omega

/-- A name of word characters that is in a text stands alone there or is hidden in a word. -/
theorem standsAlone_of_contains {name text : String} (hname : ∀ c ∈ name.toList, isWord c = true)
    (h : contains text name = true) (visible : ¬ HiddenIn name text) : StandsAlone name text := by
  obtain ⟨before, after, htext⟩ := (hasPart_iff _ _).mp h
  refine ⟨before, after, by rw [← htext, List.append_assoc], fun c hc => ?_⟩
  cases hword : isWord c with
  | false => rfl
  | true =>
      obtain ⟨front, rfl⟩ := List.getLast?_eq_some_iff.mp hc
      have hpart : c :: name.toList <:+: text.toList := ⟨front, after, by rw [← htext]; simp⟩
      obtain ⟨word, hmem, front', back', hin⟩ :=
        exists_word_of_infix (List.forall_mem_cons.mpr ⟨hword, hname⟩) hpart
      refine absurd ⟨word, hmem, ?_⟩ visible
      rw [← hin]
      cases front' with
      | nil => exact ⟨[], back', rfl⟩
      | cons d front' => exact ⟨front' ++ [c], back', by simp⟩

/-! ## The tools -/

/-- The names of the tools that reshape values. -/
def toolNames : List String := reshapingTools.map (·.1)

theorem toolNames_isWord : ∀ tool ∈ toolNames, ∀ c ∈ tool.toList, isWord c = true := by
  have hall : ∀ tool ∈ toolNames, tool.toList.all isWord = true := by decide +kernel
  exact fun tool htool => List.all_eq_true.mp (hall tool htool)

theorem toolNames_no_blank : ∀ tool ∈ toolNames, ' ' ∉ tool.toList ∧ tool ≠ "" := by decide

theorem contains_of_contains_append {text name after : String} (h : contains text (name ++ after) = true) :
    contains text name = true := by
  obtain ⟨front, back, htext⟩ := (hasPart_iff _ _).mp h
  exact (hasPart_iff _ _).mpr ⟨front, after.toList ++ back, by rw [← htext]; simp⟩

/-! ### In feeds -/

theorem contains_of_mentionsTool {text tool : String} (h : mentionsTool text tool = true) :
    contains text tool = true := by
  rcases Bool.or_eq_true_iff.mp h with h | h
  · exact contains_of_contains_append h
  · exact contains_of_contains_append h

/-- The tool by which a value is reshaped is in the small letters of a snippet, unless it is no tool but the
direct substitution. -/
theorem exists_snippet_of_reshaping? {f : Flow} {tool : String} (htool : tool ∈ toolNames)
    (h : f.reshaping?.map (·.tool) = some tool) :
    ∃ e ∈ f.evidence, contains (lower (e.snippet.getD "")) tool = true := by
  obtain ⟨found, hfound, rfl⟩ := Option.map_eq_some_iff.mp h
  unfold Flow.reshaping? at hfound
  split at hfound
  · rename_i first hfirst
    cases hfound
    obtain ⟨e, he, hfirst⟩ := List.exists_of_findSome?_eq_some hfirst
    obtain ⟨⟨tool, hasExpression⟩, hfind, rfl⟩ := Option.map_eq_some_iff.mp hfirst
    have hmentions := List.find?_some hfind
    exact ⟨e, he, contains_of_mentionsTool hmentions⟩
  · split at hfound
    · cases hfound
      exact absurd htool (by decide)
    · cases hfound

/-! ### In scores -/

/-- The mark by which the score recognises a tool. -/
def toolMark (tool : String) : String := if tool == "envsubst" then tool else tool ++ " "

theorem transformMarks_eq : transformMarks = toolNames.map toolMark := by decide

/-- The tools for which points are taken off. -/
def countedTools (evidence : List Evidence) : List String :=
  toolNames.filter fun tool => contains (snippetText evidence) (toolMark tool)

/-- An item without its snippet. -/
def Evidence.withoutSnippet (e : Evidence) : Evidence := { e with snippet := none }

/-- The snippets count through the tools alone, three points for each. -/
theorem weakPoints_eq_counted {α : Type} [Arithmetic α] (read : Number → α) (pattern : String)
    (evidence : List Evidence) :
    weakPoints (fun e => read e.strength) pattern evidence =
      weakPoints (fun e => read e.strength) pattern (evidence.map Evidence.withoutSnippet) +
        3 * (countedTools evidence).length := by
  have hnone : snippetText (evidence.map Evidence.withoutSnippet) = "" := by
    have hsnippets : (evidence.map Evidence.withoutSnippet).filterMap (·.snippet) = [] := by
      rw [List.filterMap_map]
      exact List.filterMap_eq_nil_iff.mpr fun _ _ => rfl
    rw [snippetText, hsnippets]
    rfl
  have hmarks : (transformMarks.filter (contains (snippetText evidence))).length =
      (countedTools evidence).length := by
    rw [transformMarks_eq, List.filter_map, List.length_map]
    rfl
  have hblank : (transformMarks.filter (contains "")).length = 0 := by decide
  have hweak : ((evidence.map Evidence.withoutSnippet).filter fun e =>
      Arithmetic.lt (read e.strength) (Arithmetic.ofInt 50)).length =
        (evidence.filter fun e => Arithmetic.lt (read e.strength) (Arithmetic.ofInt 50)).length := by
    rw [List.filter_map, List.length_map]
    rfl
  have hkinds : (evidence.map Evidence.withoutSnippet).all (·.kind.isWeak) =
      evidence.all (·.kind.isWeak) := by
    rw [List.all_map]
    rfl
  simp only [weakPoints, hnone, hmarks, hblank, hweak, hkinds, List.isEmpty_map, List.length_map]
  omega

/-- A tool that counts is in some snippet, also when its mark comes about between two of them. -/
theorem exists_snippet_of_counted {evidence : List Evidence} {tool : String}
    (h : tool ∈ countedTools evidence) : ∃ e ∈ evidence, contains (e.snippet.getD "") tool = true := by
  obtain ⟨htool, hmark⟩ := List.mem_filter.mp h
  have hname : contains (snippetText evidence) tool = true := by
    unfold toolMark at hmark
    split at hmark
    · exact hmark
    · exact contains_of_contains_append hmark
  obtain ⟨hblank, hne⟩ := toolNames_no_blank tool htool
  rw [snippetText, contains_intercalate_of_oneWord hblank hne] at hname
  obtain ⟨s, hs, hin⟩ := List.any_eq_true.mp hname
  obtain ⟨e, he, hsnippet⟩ := List.mem_filterMap.mp (List.mem_filter.mp hs).1
  exact ⟨e, he, by rw [hsnippet]; exact hin⟩

/-! ## What is reported is mentioned -/

/-- A tool that a feed names, or for which a score has points taken off, stands in some snippet of the
evidence with no word character before it, unless a word of a snippet hides the name of the tool inside it.
Feeds look at the small letters of the snippets.  All that the snippets do to the points are three for each
tool. -/
theorem reported_tools_stand_alone (tool : String) (htool : tool ∈ toolNames) :
    (∀ f : Flow, f.reshaping?.map (·.tool) = some tool →
      (∀ e ∈ f.evidence, ¬ HiddenIn tool (lower (e.snippet.getD ""))) →
        ∃ e ∈ f.evidence, StandsAlone tool (lower (e.snippet.getD ""))) ∧
    ∀ evidence : List Evidence,
      (∀ {α : Type} [Arithmetic α] (read : Number → α) (pattern : String),
        weakPoints (fun e => read e.strength) pattern evidence =
          weakPoints (fun e => read e.strength) pattern (evidence.map Evidence.withoutSnippet) +
            3 * (countedTools evidence).length) ∧
      (tool ∈ countedTools evidence → (∀ e ∈ evidence, ¬ HiddenIn tool (e.snippet.getD "")) →
        ∃ e ∈ evidence, StandsAlone tool (e.snippet.getD "")) := by
  have hword := toolNames_isWord tool htool
  refine ⟨fun f hreshaped visible => ?_, fun evidence => ⟨?_, fun hcounted visible => ?_⟩⟩
  · obtain ⟨e, he, hin⟩ := exists_snippet_of_reshaping? htool hreshaped
    exact ⟨e, he, standsAlone_of_contains hword hin (visible e he)⟩
  · exact fun read pattern => weakPoints_eq_counted read pattern evidence
  · obtain ⟨e, he, hin⟩ := exists_snippet_of_counted hcounted
    exact ⟨e, he, standsAlone_of_contains hword hin (visible e he)⟩

/-! ### One item of evidence -/

/-- A variable that a value mentions, with the text of the value. -/
def quotedUse (snippet : String) : Evidence :=
  { kind := .expressionMatch, description := "Helm value 'note' references $A", strength := 75,
    snippet := some snippet }

/-- A flow that this variable shows. -/
def quotedFlow (snippet : String) : Flow where
  id := "tf-helm-note"
  source := { name := "x", jobId := "infra", stepIndex := 0, command := "output" }
  target := { path := "note", jobId := "deploy", stepIndex := 1, command := "upgrade", channel := .envSubstitution }
  pattern := .outputToEnv
  confidence := .int 74
  level := .medium
  evidence := [quotedUse snippet]
  setting := { workflowFile := "ci.yml", jobChain := ["infra", "deploy"] }

/-- A call of a tool is reported and counted, and the tool stands alone in it. -/
theorem reported_tool_stands_alone :
    (quotedFlow "note=$(jq -r .note out.json)").reshaping?.map (·.tool) = some "jq" ∧
      "jq" ∈ countedTools [quotedUse "note=$(jq -r .note out.json)"] ∧
      StandsAlone "jq" (lower "note=$(jq -r .note out.json)") ∧
      StandsAlone "jq" "note=$(jq -r .note out.json)" := by
  have hreshaped : (quotedFlow "note=$(jq -r .note out.json)").reshaping?.map (·.tool) = some "jq" := by
    decide +kernel
  have hcounted : "jq" ∈ countedTools [quotedUse "note=$(jq -r .note out.json)"] := by decide +kernel
  obtain ⟨feeds, scores⟩ := reported_tools_stand_alone "jq" (by decide)
  obtain ⟨e, he, hfeed⟩ := feeds _ hreshaped (List.forall_mem_singleton.mpr (by decide +kernel))
  obtain ⟨e', he', hscore⟩ := (scores _).2 hcounted (List.forall_mem_singleton.mpr (by decide +kernel))
  obtain rfl := List.mem_singleton.mp he
  obtain rfl := List.mem_singleton.mp he'
  exact ⟨hreshaped, hcounted, hfeed, hscore⟩

/-- A word that ends like the name of a tool is reported and counted as the tool. -/
theorem word_taken_for_tool :
    (¬ ∀ f : Flow, f.reshaping?.map (·.tool) = some "sed" →
      ∃ e ∈ f.evidence, StandsAlone "sed" (lower (e.snippet.getD ""))) ∧
    ¬ ∀ evidence : List Evidence, "sed" ∈ countedTools evidence →
      ∃ e ∈ evidence, StandsAlone "sed" (e.snippet.getD "") := by
  constructor
  · intro standsAlone
    have hreshaped : (quotedFlow "--set note=used by $A").reshaping?.map (·.tool) = some "sed" := by
      decide +kernel
    obtain ⟨e, he, hname⟩ := standsAlone _ hreshaped
    obtain rfl := List.mem_singleton.mp he
    exact absurd hname (by decide +kernel)
  · intro standsAlone
    have hcounted : "sed" ∈ countedTools [quotedUse "--set note=used by $A"] := by decide +kernel
    obtain ⟨e, he, hname⟩ := standsAlone _ hcounted
    obtain rfl := List.mem_singleton.mp he
    exact absurd hname (by decide +kernel)

end DeployTrace
