/-
**Tokens of YAML.**

A document is cut into tokens from left to right.  Whether a collection begins or ends is told by
indentation; whether a scalar is the key of a mapping is known only at the colon behind it, so
the place of a possible key is remembered and its token put in there later.

Main definitions:

* `Yaml.Token` — the tokens;
* `Yaml.SimpleKey`, `Yaml.Scan` — a possible key, and the state of the cutting;
* `Yaml.Scan.tokenAt` — one more token;
* `Yaml.Token.ofText?` — the tokens of a text.
-/

import GitHooks.Config.Yaml.Scalar
import GitHooks.Config.Yaml.Tag

set_option relaxedAutoImplicit false
set_option autoImplicit false

namespace GitHooks

namespace Config

namespace Yaml

open Text

/-! ### Tokens -/

/-- A token. -/
inductive Token where
  | version (major minor : Nat)
  | tagHandle (handle : Text) (expansion : TagName)
  | documentStart
  | documentEnd
  | blockSequenceStart
  | blockMappingStart
  | blockEnd
  | flowSequenceStart
  | flowSequenceEnd
  | flowMappingStart
  | flowMappingEnd
  | blockEntry
  | flowEntry
  | key
  | value
  | aliasOf (name : Text)
  | anchor (name : Text)
  | tag (tag : Tag)
  | scalar (plain : Bool) (text : Text)
deriving DecidableEq, Repr, Inhabited

/-! ### Directives and names -/

/-- The rest of a line, with a comment perhaps. -/
def lineRest : Reader Char Unit := do
  Reader.skipWhile isBlank
  if (← Reader.peek?) = some '#' then Reader.skipWhile fun c => !isBreak c
  lineBreak <|> Reader.finished

/-- Refuses unless spacing follows. -/
def beforeSpacing : Reader Char Unit := do Reader.require (atSpacing (← get))

/-- A number of a version. -/
def versionNumber : Reader Char Nat := do
  let digits ← Reader.takeWhile1 Char.isDigit
  Reader.require (digits.length ≤ 9)
  return digitsValue digits

/-- A directive: the version of the language, or a handle for tags. -/
def directive : Reader Char Token := do
  Reader.only '%'
  let name ← Reader.takeWhile1 isNameChar
  beforeSpacing
  Reader.skipWhile isBlank
  let token ←
    if name = "YAML" then do
      let major ← versionNumber
      Reader.only '.'
      pure (Token.version major (← versionNumber))
    else if name = "TAG" then do
      let handle ← Tag.handleReader
      Reader.require (handle.length = 1 || handle.getLast? = some '!')
      let _ ← Reader.takeWhile1 isBlank
      let expansion ← TagName.reader1 true
      beforeSpacing
      pure (Token.tagHandle handle expansion.untilZero)
    else failure
  lineRest
  return token

/-- The name of an anchor or an alias, behind its mark. -/
def anchorName : Reader Char Text := do
  let _ ← Reader.next fun _ => true
  let name ← Reader.takeWhile1 isNameChar
  let rest ← get
  Reader.require (atSpacing rest || rest.head?.any (("?:,]\x7d%@" ++ ['\x60'] : Text).contains ·))
  return name

/-! ### The state of the cutting -/

/-- A place where the key of a mapping may have begun. -/
structure SimpleKey where
  /-- The number of tokens before it. -/
  position : Nat
  index : Nat
  line : Nat
  column : Nat
  /-- Whether it has to be a key. -/
  required : Bool
deriving Repr, Inhabited

/-- The state of the cutting. -/
structure Scan where
  cursor : Cursor
  tokens : Array Token
  /-- The column that the innermost block collection is indented to. -/
  indent : Int
  /-- The columns of the block collections around it. -/
  outer : List Int
  /-- Whether a key may begin here. -/
  keyAllowed : Bool
  /-- The possible keys, one for each open bracket and one outside all of them. -/
  keys : List (Option SimpleKey)
deriving Repr, Inhabited

namespace Scan

/-- The state at the beginning of a text. -/
def start (text : Text) : Scan := ⟨⟨text, 0, 0, 0⟩, #[], -1, [], true, [none]⟩

/-- Whether a bracket is open. -/
def inFlow (scan : Scan) : Bool := 1 < scan.keys.length

/-- The state with one more token. -/
def push (token : Token) (scan : Scan) : Scan := { scan with tokens := scan.tokens.push token }

/-- The state with a token put in at a position. -/
def insert (position : Nat) (token : Token) (scan : Scan) : Scan :=
  { scan with tokens := scan.tokens.insertIdxIfInBounds position token }

/-- The state after some characters. -/
def skip (count : Nat) (scan : Scan) : Scan := { scan with cursor := scan.cursor.advance count }

/-- The state after what a reader takes. -/
def read {α : Type} (reader : Reader Char α) (scan : Scan) : Option (α × Scan) :=
  (scan.cursor.read reader).map fun (value, cursor) => (value, { scan with cursor })

/-- Ends the block collections that are indented further than a column. -/
def unroll (column : Int) (scan : Scan) : Scan :=
  if scan.inFlow then scan
  else
    let deeper := (scan.indent :: scan.outer).takeWhile (column < ·)
    match (scan.indent :: scan.outer).drop deeper.length with
    | indent :: outer =>
      let tokens := scan.tokens ++ Array.replicate deeper.length Token.blockEnd
      { scan with tokens, indent, outer }
    | [] => scan

/-- Begins a block collection at a column, if it is indented further than the one around it. -/
def roll (column : Nat) (position : Nat) (token : Token) (scan : Scan) : Scan :=
  if scan.inFlow then scan
  else if scan.indent < column then
    { scan.insert position token with indent := column, outer := scan.indent :: scan.outer }
  else scan

/-- Forgets the possible key of the innermost bracket, unless it has to be one. -/
def dropKey (scan : Scan) : Option Scan :=
  match scan.keys with
  | some key :: keys => if key.required then none else some { scan with keys := none :: keys }
  | _ => some scan

/-- Remembers that a key may begin here. -/
def saveKey (scan : Scan) : Option Scan :=
  if scan.keyAllowed then
    scan.dropKey.map fun scan =>
      let key : SimpleKey :=
        { position := scan.tokens.size
          index := scan.cursor.index
          line := scan.cursor.line
          column := scan.cursor.column
          required := !scan.inFlow && scan.indent == scan.cursor.column }
      { scan with keys := some key :: scan.keys.drop 1 }
  else some scan

/-- The longest key, in bytes. -/
def maxKeyLength : Nat := 1024

/-- Whether a possible key can no longer be one: it ends on the line it begins on. -/
def isStale (cursor : Cursor) (key : SimpleKey) : Bool :=
  key.line < cursor.line || key.index + maxKeyLength < cursor.index

/-- Forgets the possible keys that can no longer be keys. -/
def dropStale (scan : Scan) : Option Scan :=
  if scan.keys.any fun key => key.any fun key => key.required && isStale scan.cursor key then none
  else some { scan with keys := scan.keys.map (Option.filter fun key => !isStale scan.cursor key) }

/-! ### Between tokens -/

/-- The blanks and the comment of the rest of a line. -/
def lineGap (atStart tabs : Bool) : Reader Char Unit := do
  if atStart then
    let _ ← Reader.optional? (Reader.only '\ufeff')
  Reader.skipWhile fun c => c == ' ' || (tabs && c == '\t')
  if (← Reader.peek?) = some '#' then Reader.skipWhile fun c => !isBreak c

/-- Everything up to the next token; tells whether a line has ended. -/
def gap (atStart tabs inFlow : Bool) : Reader Char Bool := do
  lineGap atStart tabs
  if (← Reader.optional? lineBreak).isNone then return false
  let _ ← Reader.many do
    lineGap true inFlow
    lineBreak
  lineGap true inFlow
  return true

/-- The state at the next token.  A new line may begin with a key. -/
def toToken (scan : Scan) : Option Scan :=
  (scan.read (gap (scan.cursor.column == 0) (scan.inFlow || !scan.keyAllowed) scan.inFlow)).bind
    fun (ended, scan) =>
      let allowed : Scan := { scan with keyAllowed := scan.keyAllowed || (ended && !scan.inFlow) }
      allowed.dropStale.map fun scan => scan.unroll scan.cursor.column

/-! ### Single tokens -/

/-- A token that a reader takes where a key may not begin after it. -/
def scalarLike (reader : Reader Char Token) (scan : Scan) : Option Scan := do
  let scan ← scan.saveKey
  let (token, scan) ← scan.read reader
  return { scan with keyAllowed := false }.push token

/-- A token of document structure, which ends all block collections. -/
def documentLevel (reader : Reader Char Token) (scan : Scan) : Option Scan := do
  let scan ← (scan.unroll (-1)).dropKey
  let (token, scan) ← scan.read reader
  return { scan with keyAllowed := false }.push token

/-- An opening bracket. -/
def openFlow (token : Token) (scan : Scan) : Option Scan := do
  let scan ← scan.saveKey
  return ({ scan with keys := none :: scan.keys, keyAllowed := true }.skip 1).push token

/-- A closing bracket. -/
def closeFlow (token : Token) (scan : Scan) : Option Scan := do
  let scan ← scan.dropKey
  let keys := if scan.inFlow then scan.keys.drop 1 else scan.keys
  return ({ scan with keys, keyAllowed := false }.skip 1).push token

/-- A comma between the items within brackets. -/
def flowEntry (scan : Scan) : Option Scan := do
  let scan ← scan.dropKey
  return ({ scan with keyAllowed := true }.skip 1).push .flowEntry

/-- The dash in front of an item of a block sequence. -/
def blockEntry (scan : Scan) : Option Scan := do
  guard (scan.inFlow || scan.keyAllowed)
  let scan := scan.roll scan.cursor.column scan.tokens.size .blockSequenceStart
  let scan ← scan.dropKey
  return ({ scan with keyAllowed := true }.skip 1).push .blockEntry

/-- The question mark in front of a key. -/
def explicitKey (scan : Scan) : Option Scan := do
  guard (scan.inFlow || scan.keyAllowed)
  let scan := scan.roll scan.cursor.column scan.tokens.size .blockMappingStart
  let scan ← scan.dropKey
  return ({ scan with keyAllowed := !scan.inFlow }.skip 1).push .key

/-- The colon in front of a value; a possible key before it is one. -/
def value (scan : Scan) : Option Scan :=
  match scan.keys with
  | some key :: keys =>
    let scan := (scan.insert key.position .key).roll key.column key.position .blockMappingStart
    some (({ scan with keys := none :: keys, keyAllowed := false }.skip 1).push .value)
  | _ => do
    guard (scan.inFlow || scan.keyAllowed)
    let scan := scan.roll scan.cursor.column scan.tokens.size .blockMappingStart
    return ({ scan with keyAllowed := !scan.inFlow }.skip 1).push .value

/-- A block of lines, behind which a key may begin. -/
def blockScalar (scan : Scan) : Option Scan := do
  let scan ← scan.dropKey
  let (text, scan) ← scan.read (block scan.indent)
  return { scan with keyAllowed := true }.push (.scalar false text)

/-- A plain scalar, behind which a key may begin when a line has ended. -/
def plainScalar (scan : Scan) : Option Scan := do
  let scan ← scan.saveKey
  let ((text, ended), scan) ← scan.read (plain scan.inFlow (scan.indent + 1).toNat)
  return { scan with keyAllowed := ended }.push (.scalar true text)

/-- Whether a plain scalar can begin with a character, given the text behind it. -/
def beginsPlain (inFlow : Bool) (c : Char) (rest : Text) : Bool :=
  !(isSpacing c || ("-?:,[]\x7b\x7d#&*!|>'\"%@".toList).contains c || c == '\x60')
    || (c == '-' && !rest.head?.any isBlank)
    || (!inFlow && (c == '?' || c == ':') && !atSpacing rest)

/-- The token that begins with a character. -/
def tokenAt (scan : Scan) (c : Char) (rest : Text) : Option Scan :=
  let inFlow := scan.inFlow
  if scan.cursor.column == 0 && c == '%' then scan.documentLevel directive
  else if scan.cursor.column == 0 && atDocumentMarker (c :: rest) then
    scan.documentLevel do
      let _ ← Reader.exactly 3 fun _ => true
      return if c == '-' then .documentStart else .documentEnd
  else if c == '[' then scan.openFlow .flowSequenceStart
  else if c == '\x7b' then scan.openFlow .flowMappingStart
  else if c == ']' then scan.closeFlow .flowSequenceEnd
  else if c == '\x7d' then scan.closeFlow .flowMappingEnd
  else if c == ',' then scan.flowEntry
  else if c == '-' && atSpacing rest then scan.blockEntry
  else if c == '?' && (inFlow || atSpacing rest) then scan.explicitKey
  else if c == ':' && (inFlow || atSpacing rest) then scan.value
  else if c == '*' then scan.scalarLike (Token.aliasOf <$> anchorName)
  else if c == '&' then scan.scalarLike (Token.anchor <$> anchorName)
  else if c == '!' then scan.scalarLike (Token.tag <$> Tag.reader inFlow)
  else if (c == '|' || c == '>') && !inFlow then scan.blockScalar
  else if c == '\'' || c == '"' then scan.scalarLike (Token.scalar false <$> quoted c)
  else if beginsPlain inFlow c rest then scan.plainScalar
  else none

/-- The state at the end of a text, where all block collections end. -/
def finish (scan : Scan) : Option Scan := (scan.unroll (-1)).dropKey

/-- The tokens of the rest of a text. -/
def tokens? (scan : Scan) : Option (List Token) :=
  match scan.toToken with
  | none => none
  | some here =>
    match here.cursor.rest with
    | [] => here.finish.map fun scan => scan.tokens.toList
    | c :: rest =>
      match here.tokenAt c rest with
      | none => none
      | some later =>
        if later.cursor.rest.length < scan.cursor.rest.length then tokens? later else none
termination_by scan.cursor.rest.length

end Scan

/-- The tokens of a text. -/
def Token.ofText? (text : Text) : Option (List Token) :=
  if text.all isAllowed then (Scan.start text).tokens? else none

end Yaml

end Config

end GitHooks
