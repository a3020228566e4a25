/-
**Documents of YAML as trees.**

The tokens of a stream are read as one document: directives, then a node.  A node is a scalar, a
sequence, a mapping, or an alias of a node that was anchored before it; anchors are numbered from
the beginning of the document, and what a number stands for is known once all of it has been read.

Main definitions:

* `Yaml.Properties`, `Yaml.Node` — nodes and what is said of them in front;
* `Yaml.numberAnchors` — anchors and aliases by number;
* `Yaml.node` — nodes;
* `Yaml.document`, `Yaml.Node.ofTokens?` — the one document of a stream, and its node.
-/

import GitHooks.Config.Yaml.Token
import GitHooks.Entries

set_option relaxedAutoImplicit false
set_option autoImplicit false

namespace GitHooks

namespace Config

namespace Yaml

open Text

/-! ### Nodes -/

/-- What is said of a node in front of it. -/
structure Properties where
  anchor : Option Nat
  tag : Option TagName
deriving DecidableEq, Repr, Inhabited

/-- A node of a document. -/
inductive Node where
  | aliasOf (number : Nat)
  | scalar (properties : Properties) (plain : Bool) (text : Text)
  | sequence (properties : Properties) (items : List Node)
  | mapping (properties : Properties) (entries : List (Node × Node))
deriving Repr, Inhabited

namespace Node

/-- The node that stands where nothing is written. -/
def empty : Node := scalar ⟨none, none⟩ true []

/-- The number of a node that is anchored. -/
def anchor? : Node → Option Nat
  | aliasOf _ => none
  | scalar properties _ _ => properties.anchor
  | sequence properties _ => properties.anchor
  | mapping properties _ => properties.anchor

mutual

/-- A node and the nodes in it, in the order in which they begin. -/
def nodes : Node → List Node
  | aliasOf number => [aliasOf number]
  | scalar properties plain text => [scalar properties plain text]
  | sequence properties items => sequence properties items :: itemNodes items
  | mapping properties entries => mapping properties entries :: entryNodes entries

/-- The nodes of the items of a sequence. -/
def itemNodes : List Node → List Node
  | [] => []
  | item :: items => nodes item ++ itemNodes items

/-- The nodes of the entries of a mapping. -/
def entryNodes : List (Node × Node) → List Node
  | [] => []
  | (key, value) :: entries => nodes key ++ nodes value ++ entryNodes entries

end

end Node

/-! ### Anchors -/

/-- A token in which anchors and aliases have numbers. -/
inductive Part where
  | token (token : Token)
  | anchor (number : Nat)
  | aliasOf (number : Nat)
deriving DecidableEq, Repr, Inhabited

/-- Tokens with a number for each anchor, the count of the names met before it, and for each alias
the number of the anchor that last had its name; none when there is no such anchor. -/
def numberAnchors (names : Entries Nat) : List Token → Option (List Part)
  | [] => some []
  | .anchor name :: rest =>
    (numberAnchors (Entries.insert name names.length names) rest).map
      (Part.anchor names.length :: ·)
  | .aliasOf name :: rest =>
    (Entries.get? name names).bind fun number =>
      (numberAnchors names rest).map (Part.aliasOf number :: ·)
  | token :: rest => (numberAnchors names rest).map (Part.token token :: ·)

/-! ### Reading nodes -/

/-- Whether one of some tokens comes next, or the end. -/
def comesNext (tokens : List Token) : Reader Part Bool := do
  match ← Reader.peek? with
  | some (.token token) => return tokens.contains token
  | _ => return false

/-- A given token. -/
def takes (token : Token) : Reader Part Unit := Reader.only (.token token)

/-- A tag in front of a node. -/
def tagPart (handles : Handles) : Reader Part TagName := fun parts =>
  match parts with
  | .token (.tag tag) :: rest => (tag.name? handles).map fun name => (name, rest)
  | _ => none

/-- An anchor in front of a node. -/
def anchorPart : Reader Part Nat := fun parts =>
  match parts with
  | .anchor number :: rest => some (number, rest)
  | _ => none

/-- Anchor and tag in front of a node, in any order. -/
def properties (handles : Handles) : Reader Part Properties := do
  let before ← Reader.optional? anchorPart
  let tag ← Reader.optional? (tagPart handles)
  let after ← if before.isNone && tag.isSome then Reader.optional? anchorPart else pure none
  return ⟨before.or after, tag⟩

/-- What comes next where a node may be left out: nothing, before one of some tokens. -/
def nodeOrEmpty (before : List Token) (node : Reader Part Node) : Reader Part Node := do
  if ← comesNext before then return .empty else node

/-- The value of an entry: what follows its mark, or nothing where there is none. -/
def entryValue (before : List Token) (node : Reader Part Node) : Reader Part Node := do
  if ← comesNext [.value] then
    takes .value
    nodeOrEmpty before node
  else return .empty

/-- An entry of a mapping whose key has a mark. -/
def entry (beforeKey beforeValue : List Token) (node : Reader Part Node) :
    Reader Part (Node × Node) := do
  takes .key
  let key ← nodeOrEmpty beforeKey node
  return (key, ← entryValue beforeValue node)

/-- The entries of a block mapping. -/
def blockEntries (node : Reader Part Node) : Reader Part (List (Node × Node)) :=
  let before := [Token.key, .value, .blockEnd]
  Reader.many (entry before before node)

/-- The items of a block sequence. -/
def blockItems (before : List Token) (node : Reader Part Node) : Reader Part (List Node) :=
  Reader.many do
    takes .blockEntry
    nodeOrEmpty (.blockEntry :: before) node

/-- Items within brackets, with commas between them and perhaps one behind them. -/
def flowItems {α : Type} (item : Reader Part α) : Reader Part (List α) := do
  let items ← Reader.optional? (Reader.separated (takes .flowEntry) item)
  if items.isSome then
    let _ ← Reader.optional? (takes .flowEntry)
  return items.getD []

/-- An item of a flow sequence; one with the mark of a key is a mapping of one entry.  Where its
key is left out, the token that tells so is passed over. -/
def flowSequenceItem (node : Reader Part Node) : Reader Part Node := do
  if ← comesNext [.key] then
    takes .key
    let missing ← comesNext [.value, .flowEntry, .flowSequenceEnd]
    let key ← if missing then (do let _ ← Reader.next fun _ => true; pure .empty) else node
    let value ← entryValue [.flowEntry, .flowSequenceEnd] node
    return .mapping ⟨none, none⟩ [(key, value)]
  else node

/-- An entry of a flow mapping; one without the mark of a key has no value. -/
def flowMappingEntry (node : Reader Part Node) : Reader Part (Node × Node) := do
  if ← comesNext [.key] then
    entry [.value, .flowEntry, .flowMappingEnd] [.flowEntry, .flowMappingEnd] node
  else return (← node, .empty)

/-- The scalar that comes next, with what is said of it. -/
def scalarPart (said : Properties) : Reader Part Node := fun parts =>
  match parts with
  | .token (.scalar plain text) :: rest => some (.scalar said plain text, rest)
  | _ => none

/-- An alias. -/
def aliasPart : Reader Part Node := fun parts =>
  match parts with
  | .aliasOf number :: rest => some (.aliasOf number, rest)
  | _ => none

/-- A node nested in at most `depth` more collections.  `inBlock` admits collections told by
indentation, and `indentless` sequences whose dashes are not indented. -/
def node (handles : Handles) : Nat → Bool → Bool → Reader Part Node
  | 0, _, _ => aliasPart <|> (do scalarPart (← properties handles)) <|> (do
      let said ← properties handles
      Reader.require (said.anchor.isSome || said.tag.isSome)
      return .scalar said true [])
  | depth + 1, inBlock, indentless =>
    aliasPart <|> do
      let said ← properties handles
      let inner := node handles depth
      if indentless && (← comesNext [.blockEntry]) then
        return .sequence said (← blockItems [.key, .value, .blockEnd] (inner true false))
      else if ← comesNext [.flowSequenceStart] then
        takes .flowSequenceStart
        let items ← flowItems (flowSequenceItem (inner false false))
        takes .flowSequenceEnd
        return .sequence said items
      else if ← comesNext [.flowMappingStart] then
        takes .flowMappingStart
        let entries ← flowItems (flowMappingEntry (inner false false))
        takes .flowMappingEnd
        return .mapping said entries
      else if inBlock && (← comesNext [.blockSequenceStart]) then
        takes .blockSequenceStart
        let items ← blockItems [.blockEnd] (inner true false)
        takes .blockEnd
        return .sequence said items
      else if inBlock && (← comesNext [.blockMappingStart]) then
        takes .blockMappingStart
        let entries ← blockEntries (inner true true)
        takes .blockEnd
        return .mapping said entries
      else
        scalarPart said <|> (do
          Reader.require (said.anchor.isSome || said.tag.isSome)
          return .scalar said true [])

/-! ### Documents -/

/-- The deepest nesting of collections. -/
def maxDepth : Nat := 128

/-- The handles that directives give, and whether a version has been given. -/
structure Directives where
  versionSeen : Bool
  handles : Handles
deriving Repr, Inhabited

/-- What one more token does to the directives, if it is a directive.  A version is given once, and
so is each handle. -/
def Directives.step (directives : Directives) : Part → Option Directives
  | .token (.version major minor) =>
    if !directives.versionSeen && major == 1 && (minor == 1 || minor == 2) then
      some { directives with versionSeen := true }
    else none
  | .token (.tagHandle handle expansion) =>
    if Entries.contains handle directives.handles then none
    else some { directives with handles := Entries.insert handle expansion directives.handles }
  | _ => none

/-- Whether a token is a directive. -/
def isDirective : Part → Bool
  | .token (.version _ _) => true
  | .token (.tagHandle _ _) => true
  | _ => false

/-- The handles in use in a document, and whether its beginning is marked. -/
def documentHead : Reader Part (Handles × Bool) := do
  let written ← Reader.takeWhile isDirective
  let marked := (← Reader.optional? (takes .documentStart)).isSome
  Reader.require (marked || written.isEmpty)
  let directives ← Reader.ofOption (written.foldlM Directives.step ⟨false, []⟩)
  return (Entries.unionWith (fun given _ => given) directives.handles Handles.standard, marked)

/-- A document: the node it holds, which is left out only where its beginning is marked. -/
def document : Reader Part Node := do
  let (handles, marked) ← documentHead
  let nothing := marked && (← atEnd)
  let root ← if nothing then pure .empty else node handles maxDepth true false
  let _ ← Reader.many (takes .documentEnd)
  return root
where
  /-- Whether the document ends here. -/
  atEnd : Reader Part Bool := do
    match ← Reader.peek? with
    | none => return true
    | some part =>
      return isDirective part || part == .token .documentStart || part == .token .documentEnd

/-- The node of the one document in a stream of tokens; an empty stream holds none. -/
def Node.ofTokens? (tokens : List Token) : Option (Option Node) :=
  match tokens with
  | [] => some none
  | _ => (numberAnchors [] tokens).bind fun parts => (Reader.run? document parts).map some

end Yaml

end Config

end GitHooks
