/-
**Tags of YAML.**

A tag says what kind of value a node is.  Its name is written with escapes for single bytes, which
need not be the bytes of a text; a zero byte ends the name.  A tag is written out in angle
brackets, or as a handle, which stands for the beginning of a name, and the rest of it.

Main definitions:

* `Yaml.TagName` — names of tags;
* `Yaml.Tag`, `Yaml.Tag.reader` — tags as they are written;
* `Yaml.Handles`, `Yaml.Tag.name?` — what handles stand for, and the name that a tag gives;
* `Yaml.TagName.core`, `Yaml.TagName.isLocal` — the names of the language itself, and those of a
  document.
-/

import GitHooks.Config.Yaml.Characters
import GitHooks.Entries
import GitHooks.Text.Encoding

set_option relaxedAutoImplicit false
set_option autoImplicit false

namespace GitHooks

namespace Config

namespace Yaml

open Text

/-! ### Names -/

/-- The name of a tag, by its bytes. -/
abbrev TagName := List UInt8

namespace TagName

/-- The name that a text is. -/
def ofText (t : Text) : TagName := (Text.encode t).data.toList

/-- The bytes of a name up to the first zero byte. -/
def untilZero (name : TagName) : TagName := name.takeWhile (· != 0)

/-- The name of a kind of scalars of the language itself. -/
def core (kind : Text) : TagName := ofText ("tag:yaml.org,2002:" ++ kind)

/-- Whether a name begins with an exclamation mark. -/
def isMarked (name : TagName) : Bool := (ofText "!").isPrefixOf name

/-- Whether a name is one of the document's own, which no value has: it is marked, and a text. -/
def isLocal (name : TagName) : Bool :=
  name.isMarked && (Text.decode? ⟨name.toArray⟩).isSome

/-! ### Reading names -/

/-- One escaped byte. -/
def escapedByte : Reader Char UInt8 := do
  Reader.only '%'
  let digits ← Reader.exactly 2 fun c =>
    c.isDigit || ('a' ≤ c && c ≤ 'f') || ('A' ≤ c && c ≤ 'F')
  return UInt8.ofNat (digits.foldl (fun n c => 16 * n + hexDigitValue c) 0)

/-- An escaped byte that goes on with a character. -/
def trailingByte : Reader Char UInt8 := do
  let byte ← escapedByte
  Reader.require (0x80 ≤ byte && byte < 0xC0)
  return byte

/-- Some escaped bytes that go on with a character. -/
def trailingBytes : Nat → Reader Char TagName
  | 0 => return []
  | count + 1 => do
    let byte ← trailingByte
    return byte :: (← trailingBytes count)

/-- Escaped bytes of the form of one character, which need not be one. -/
def escaped : Reader Char TagName := do
  let first ← escapedByte
  if first < 0x80 then return [first]
  else if 0xC0 ≤ first ∧ first < 0xE0 then return first :: (← trailingBytes 1)
  else if 0xE0 ≤ first ∧ first < 0xF0 then return first :: (← trailingBytes 2)
  else if 0xF0 ≤ first ∧ first < 0xF8 then return first :: (← trailingBytes 3)
  else failure

/-- Whether a character can stand in a name; `verbatim` admits brackets and commas. -/
def isNamePart (verbatim : Bool) (c : Char) : Bool :=
  isNameChar c || (";/?:@&=+$.!~*'()".toList).contains c
    || (verbatim && (c == ',' || c == '[' || c == ']'))

/-- The name that comes next, perhaps empty. -/
def reader (verbatim : Bool) : Reader Char TagName := do
  let parts ← Reader.many
    (escaped <|> (do return ofText [← Reader.next (isNamePart verbatim)]))
  return parts.flatten

/-- The name that comes next, which is not empty. -/
def reader1 (verbatim : Bool) : Reader Char TagName := do
  let name ← reader verbatim
  Reader.require !name.isEmpty
  return name

end TagName

/-! ### Tags -/

/-- A tag as it is written: a handle, which is empty where there is none, and the rest. -/
structure Tag where
  handle : Text
  suffix : TagName
deriving DecidableEq, Repr, Inhabited

/-- What the handles of a document stand for. -/
abbrev Handles := Entries TagName

/-- The handles that need no directive. -/
def Handles.standard : Handles :=
  Entries.ofList [("!", TagName.ofText "!"), ("!!", TagName.core [])]

namespace Tag

/-- The name that a tag gives. -/
def name? (handles : Handles) (tag : Tag) : Option TagName :=
  if tag.handle.isEmpty then some tag.suffix
  else (Entries.get? tag.handle handles).map (· ++ tag.suffix)

/-! ### Reading tags -/

/-- An exclamation mark, a name and perhaps another exclamation mark. -/
def handleReader : Reader Char Text := do
  Reader.only '!'
  let name ← Reader.takeWhile isNameChar
  let closed ← Reader.optional? (Reader.only '!')
  return '!' :: (name ++ if closed.isSome then ['!'] else [])

/-- Whether a text is a handle with an exclamation mark at both ends. -/
def isClosedHandle (handle : Text) : Bool := 1 < handle.length && handle.getLast? = some '!'

/-- A tag in angle brackets. -/
def verbatim : Reader Char Tag := do
  Reader.word "!<".toList
  let name ← TagName.reader1 true
  Reader.only '>'
  return ⟨[], name.untilZero⟩

/-- A tag with a handle that is closed. -/
def withHandle : Reader Char Tag := do
  let handle ← handleReader
  Reader.require (isClosedHandle handle)
  return ⟨handle, (← TagName.reader1 false).untilZero⟩

/-- A tag with one exclamation mark; a lone one is its own name. -/
def marked : Reader Char Tag := do
  Reader.only '!'
  let suffix := (← TagName.reader false).untilZero
  return if suffix.isEmpty then ⟨[], TagName.ofText "!"⟩ else ⟨"!", suffix⟩

/-- A tag, behind which the next node is set off. -/
def reader (inFlow : Bool) : Reader Char Tag := do
  let text ← get
  let tag ←
    if startsWith text "!<" then verbatim
    else if (handleReader text).any fun (handle, _) => isClosedHandle handle then withHandle
    else marked
  let rest ← get
  Reader.require (atSpacing rest || (inFlow && rest.head? = some ','))
  return tag

end Tag

end Yaml

end Config

end GitHooks
