/-
**Characters and positions of YAML.**

YAML knows its own blanks and line breaks, and columns matter to it.  A cursor is what is left of
a text together with the position reached.

Main definitions:

* `Yaml.isBlank`, `Yaml.isBreak`, `Yaml.isAllowed` — classes of characters;
* `Yaml.Cursor`, `Yaml.Cursor.advance` — the rest of a text and its position;
* `Yaml.lineBreaks`, `Yaml.foldBlanks` — the line breaks of a run of blanks, and what it stands for
  between the words of a scalar.
-/

import GitHooks.Reader

set_option relaxedAutoImplicit false
set_option autoImplicit false

namespace GitHooks

namespace Config

namespace Yaml

/-! ### Classes -/

/-- Spaces and tabs. -/
def isBlank (c : Char) : Bool := c == ' ' || c == '\t'

/-- Characters that end a line. -/
def isBreak (c : Char) : Bool :=
  c == '\n' || c == '\r' || c == '\u0085' || c == '\u2028' || c == '\u2029'

/-- Blanks and characters that end a line. -/
def isSpacing (c : Char) : Bool := isBlank c || isBreak c

/-- Characters of names. -/
def isNameChar (c : Char) : Bool := c.isAlphanum || c == '_' || c == '-'

/-- Characters that delimit collections within a line. -/
def isFlowIndicator (c : Char) : Bool :=
  c == ',' || c == '[' || c == ']' || c == '\x7b' || c == '\x7d'

/-- Characters that may occur in a document at all. -/
def isAllowed (c : Char) : Bool :=
  let n := c.toNat
  n == 0x09 || n == 0x0A || n == 0x0D || (0x20 ≤ n && n ≤ 0x7E) || n == 0x85
    || (0xA0 ≤ n && n ≤ 0xD7FF) || (0xE000 ≤ n && n ≤ 0xFFFD) || 0x10000 ≤ n

/-- Whether a text is at an end, a blank or a line break. -/
def atSpacing : Text → Bool
  | [] => true
  | c :: _ => isSpacing c

/-- Whether a text begins with a marker of documents: three of a character, and spacing. -/
def atDocumentMarker (text : Text) : Bool :=
  (Text.startsWith text "---" || Text.startsWith text "...") && atSpacing (text.drop 3)

/-! ### Positions -/

/-- What is left of a text, and the position reached. -/
structure Cursor where
  rest : Text
  /-- The length in bytes of what has been read. -/
  index : Nat
  line : Nat
  column : Nat
deriving Repr, Inhabited

namespace Cursor

/-- The position after one character more. -/
def afterChar (c : Char) (rest : Text) (cursor : Cursor) : Cursor :=
  if isBreak c && !(c == '\r' && rest.head? == some '\n') then
    ⟨rest, cursor.index + c.utf8Size, cursor.line + 1, 0⟩
  else ⟨rest, cursor.index + c.utf8Size, cursor.line, cursor.column + 1⟩

/-- The position after some characters more. -/
def advance : Nat → Cursor → Cursor
  | 0, cursor => cursor
  | count + 1, cursor =>
    match cursor.rest with
    | [] => cursor
    | c :: rest => advance count (afterChar c rest cursor)

/-- What a reader takes at a position, and the position after it. -/
def read {α : Type} (reader : Reader Char α) (cursor : Cursor) : Option (α × Cursor) :=
  (reader cursor.rest).map fun (value, rest) =>
    (value, cursor.advance (cursor.rest.length - rest.length))

end Cursor

/-! ### Line breaks -/

/-- A line break; a carriage return and a line feed are one. -/
def lineBreak : Reader Char Unit :=
  Reader.word "\r\n".toList <|> (do let _ ← Reader.next isBreak)

/-- What a character that ends a line stands for. -/
def breakText (c : Char) : Text := if c == '\u2028' || c == '\u2029' then [c] else ['\n']

/-- What the line breaks of a run of blanks stand for, one by one. -/
def lineBreaks : Text → List Text
  | [] => []
  | c :: rest =>
    if isBreak c && !(c == '\r' && rest.head? == some '\n') then breakText c :: lineBreaks rest
    else lineBreaks rest

/-- What a run of blanks between words stands for: itself on one line, a space for one line break,
and for several all but the first. -/
def foldBlanks (blanks : Text) : Text :=
  match lineBreaks blanks with
  | [] => blanks
  | [first] => if first = ['\n'] then [' '] else first
  | first :: others => if first = ['\n'] then others.flatten else first ++ others.flatten

end Yaml

end Config

end GitHooks
