/-
  DeployTrace/Format/Yaml/Node.lean --- the nodes of a YAML document.

  A node is a scalar, a sequence or a mapping, maybe with a tag.  A node that has an anchor can be
  referred to later in the document and then stands there a second time; two nodes cannot have one
  anchor.  Where a node may be left out, an empty plain scalar takes its place.
-/
import DeployTrace.Format.Yaml.Token

set_option autoImplicit false

namespace DeployTrace.Yaml

open Text

/-! ## Nodes -/

/-- A node; a scalar says whether it is written plain. -/
inductive Node where
  | scalar (tag : Option String) (text : String) (plain : Bool)
  | sequence (tag : Option String) (items : List Node)
  | mapping (tag : Option String) (entries : List (Node × Node))
  deriving Repr

/-- The node that stands for one that is left out. -/
def Node.missing (tag : Option String) : Node := .scalar tag "" tag.isNone

/-- The nodes that can be referred to. -/
abbrev Anchors : Type := List (Chars × Node)

/-- A node, the tokens after it, and the nodes that can be referred to from there on. -/
abbrev NodeRead : Type := Option (Node × List Token × Anchors)

/-- The text that tags of the language start with. -/
def tagBase : String := "tag:yaml.org,2002:"

/-- The full text of a tag; nothing for a handle that is not known. -/
def tagText? (handle : Option Chars) (suffix : Chars) : Option String :=
  match handle with
  | none => some (String.ofList suffix)
  | some h =>
    if h == "!!".toList then some (tagBase ++ String.ofList suffix)
    else if h == ['!'] then some ("!" ++ String.ofList suffix)
    else none

/-- What stands before a node. -/
structure Properties where
  anchor : Option Chars := none
  tag : Option String := none

/-- The properties at the start of some tokens, in either order. -/
def readProperties : List Token → Option (Properties × List Token)
  | .anchor a :: .tag h t :: rest => (tagText? h t).map fun tag => (⟨some a, some tag⟩, rest)
  | .tag h t :: .anchor a :: rest => (tagText? h t).map fun tag => (⟨some a, some tag⟩, rest)
  | .anchor a :: rest => some (⟨some a, none⟩, rest)
  | .tag h t :: rest => (tagText? h t).map fun tag => (⟨none, some tag⟩, rest)
  | rest => some ({}, rest)

/-- Where a node stands: in a block, in a mapping of a block, whose sequences need no indent, or inside
brackets. -/
inductive Position where
  | block
  | mappingEntry
  | flow
  deriving DecidableEq, Repr

/-- The read of a node with its anchor remembered. -/
def remember (properties : Properties) (read : NodeRead) : NodeRead := do
  let (node, rest, anchors) ← read
  match properties.anchor with
  | none => some (node, rest, anchors)
  | some name =>
    if anchors.any (·.1 == name) then none else some (node, rest, (name, node) :: anchors)

/-- Whether a token is one of some. -/
def startsWithOneOf (tokens : List Token) (set : List Token) : Bool :=
  (tokens.head?.map set.contains).getD false

mutual

/-- A node at the start of some tokens, in at most so many steps. -/
def readNode : Nat → Position → List Token → Anchors → NodeRead
  | 0, _, _, _ => none
  | steps + 1, position, tokens, anchors =>
    match tokens with
    | .reference name :: rest => (anchors.lookup name).map fun node => (node, rest, anchors)
    | _ => do
      let (properties, tokens) ← readProperties tokens
      remember properties (readContent steps position properties tokens anchors)

/-- What a node with some properties holds. -/
def readContent : Nat → Position → Properties → List Token → Anchors → NodeRead
  | 0, _, _, _, _ => none
  | steps + 1, position, properties, tokens, anchors =>
    match tokens, position with
    | .scalar text plain :: rest, _ => some (.scalar properties.tag text plain, rest, anchors)
    | .flowSequence :: rest, _ => readFlowItems steps properties.tag true [] rest anchors
    | .flowMapping :: rest, _ => readFlowEntries steps properties.tag true [] rest anchors
    | .blockEntry :: _, .mappingEntry => readPlainItems steps properties.tag [] tokens anchors
    | .blockSequence :: _, .flow => none
    | .blockMapping :: _, .flow => none
    | .blockSequence :: rest, _ => readItems steps properties.tag [] rest anchors
    | .blockMapping :: rest, _ => readEntries steps properties.tag [] rest anchors
    | rest, _ =>
      if properties.anchor.isSome || properties.tag.isSome then
        some (.missing properties.tag, rest, anchors)
      else none

/-- A node, or the one that stands for a node left out before one of some tokens. -/
def readOptional : Nat → Position → List Token → List Token → Anchors → NodeRead
  | 0, _, _, _, _ => none
  | steps + 1, position, before, tokens, anchors =>
    if startsWithOneOf tokens before then some (.missing none, tokens, anchors)
    else readNode steps position tokens anchors

/-- The items of an indented sequence from one on, those before in reverse. -/
def readItems : Nat → Option String → List Node → List Token → Anchors → NodeRead
  | 0, _, _, _, _ => none
  | steps + 1, tag, before, tokens, anchors =>
    match tokens with
    | .blockEntry :: rest => do
      let (item, rest, anchors) ← readOptional steps .block [.blockEntry, .blockEnd] rest anchors
      readItems steps tag (item :: before) rest anchors
    | .blockEnd :: rest => some (.sequence tag before.reverse, rest, anchors)
    | _ => none

/-- The items of a sequence without an indent of its own. -/
def readPlainItems : Nat → Option String → List Node → List Token → Anchors → NodeRead
  | 0, _, _, _, _ => none
  | steps + 1, tag, before, tokens, anchors =>
    match tokens with
    | .blockEntry :: rest => do
      let (item, rest, anchors) ←
        readOptional steps .block [.blockEntry, .key, .value, .blockEnd] rest anchors
      readPlainItems steps tag (item :: before) rest anchors
    | rest => some (.sequence tag before.reverse, rest, anchors)

/-- The value after a key, left out when no colon follows or nothing follows the colon. -/
def readValueOf : Nat → Position → List Token → List Token → Anchors → NodeRead
  | 0, _, _, _, _ => none
  | steps + 1, position, before, tokens, anchors =>
    match tokens with
    | .value :: rest => readOptional steps position before rest anchors
    | rest => some (.missing none, rest, anchors)

/-- The entries of a mapping in a block from one on, those before in reverse. -/
def readEntries : Nat → Option String → List (Node × Node) → List Token → Anchors → NodeRead
  | 0, _, _, _, _ => none
  | steps + 1, tag, before, tokens, anchors =>
    match tokens with
    | .blockEnd :: rest => some (.mapping tag before.reverse, rest, anchors)
    | .key :: rest => do
      let (key, rest, anchors) ← readOptional steps .mappingEntry [.key, .value, .blockEnd] rest anchors
      let (value, rest, anchors) ← readValueOf steps .mappingEntry [.key, .value, .blockEnd] rest anchors
      readEntries steps tag ((key, value) :: before) rest anchors
    | .value :: _ => do
      let (value, rest, anchors) ← readValueOf steps .mappingEntry [.key, .value, .blockEnd] tokens anchors
      readEntries steps tag ((.missing none, value) :: before) rest anchors
    | _ => none

/-- The items of a sequence in brackets from one on; `first` tells that none is before. -/
def readFlowItems : Nat → Option String → Bool → List Node → List Token → Anchors → NodeRead
  | 0, _, _, _, _, _ => none
  | steps + 1, tag, first, before, tokens, anchors =>
    match tokens, first with
    | .flowSequenceEnd :: rest, _ => some (.sequence tag before.reverse, rest, anchors)
    | .flowEntry :: .flowSequenceEnd :: rest, false => some (.sequence tag before.reverse, rest, anchors)
    | .flowEntry :: rest, false => do
      let (item, rest, anchors) ← readFlowItem steps rest anchors
      readFlowItems steps tag false (item :: before) rest anchors
    | _, false => none
    | tokens, true => do
      let (item, rest, anchors) ← readFlowItem steps tokens anchors
      readFlowItems steps tag false (item :: before) rest anchors

/-- One item of a sequence in brackets; a key there makes a mapping of one entry. -/
def readFlowItem : Nat → List Token → Anchors → NodeRead
  | 0, _, _ => none
  | steps + 1, tokens, anchors =>
    match tokens with
    | .key :: rest => do
      let (key, rest, anchors) ←
        readOptional steps .flow [.value, .flowEntry, .flowSequenceEnd] rest anchors
      let (value, rest, anchors) ← readValueOf steps .flow [.flowEntry, .flowSequenceEnd] rest anchors
      some (.mapping none [(key, value)], rest, anchors)
    | _ => readNode steps .flow tokens anchors

/-- The entries of a mapping in braces from one on; `first` tells that none is before. -/
def readFlowEntries :
    Nat → Option String → Bool → List (Node × Node) → List Token → Anchors → NodeRead
  | 0, _, _, _, _, _ => none
  | steps + 1, tag, first, before, tokens, anchors =>
    match tokens, first with
    | .flowMappingEnd :: rest, _ => some (.mapping tag before.reverse, rest, anchors)
    | .flowEntry :: .flowMappingEnd :: rest, false => some (.mapping tag before.reverse, rest, anchors)
    | .flowEntry :: rest, false => do
      let (entry, rest, anchors) ← readFlowPair steps rest anchors
      readFlowEntries steps tag false (entry :: before) rest anchors
    | _, false => none
    | tokens, true => do
      let (entry, rest, anchors) ← readFlowPair steps tokens anchors
      readFlowEntries steps tag false (entry :: before) rest anchors

/-- One entry of a mapping in braces; without a key and a colon it is a key alone. -/
def readFlowPair : Nat → List Token → Anchors → Option ((Node × Node) × List Token × Anchors)
  | 0, _, _ => none
  | steps + 1, tokens, anchors =>
    match tokens with
    | .key :: rest => do
      let (key, rest, anchors) ← readOptional steps .flow [.value, .flowEntry, .flowMappingEnd] rest anchors
      let (value, rest, anchors) ← readValueOf steps .flow [.flowEntry, .flowMappingEnd] rest anchors
      some ((key, value), rest, anchors)
    | _ => do
      let (key, rest, anchors) ← readNode steps .flow tokens anchors
      some ((key, .missing none), rest, anchors)

end

/-! ## Documents -/

/-- The tokens after the directives of a document, which have to be of a known version and each kind
once. -/
def skipDirectives : Bool → List Token → Option (List Token)
  | _, .directive none :: rest => skipDirectives true rest
  | _, .directive (some (1, _)) :: rest => skipDirectives true rest
  | _, .directive (some _) :: _ => none
  | true, .documentStart :: rest => some (.documentStart :: rest)
  | true, _ => none
  | false, rest => some rest

/-- The tokens after the marks that end a document. -/
def skipEnds : List Token → List Token
  | .documentEnd :: rest => skipEnds rest
  | rest => rest

/-- The only document of some tokens; nothing inside when there is none.  More than one document is an
error. -/
def readDocument (tokens : List Token) : Option (Option Node) :=
  let steps := 6 * tokens.length + 16
  let finish (read : NodeRead) : Option (Option Node) :=
    match read with
    | some (node, rest, _) => if (skipEnds rest).isEmpty then some (some node) else none
    | none => none
  match skipDirectives false tokens with
  | none => none
  | some [] => some none
  | some (.documentStart :: rest) =>
    match rest with
    | [] => some (some (.missing none))
    | .documentEnd :: _ => finish (some (.missing none, rest, []))
    | _ => finish (readNode steps .block rest [])
  | some rest => finish (readNode steps .block rest [])

/-- The only document of a text. -/
def Node.read? (text : String) : Option (Option Node) := (Token.read? text).bind readDocument

end DeployTrace.Yaml
