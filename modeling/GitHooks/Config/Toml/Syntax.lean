/-
**How TOML is written.**

A document is a list of lines that hold a header, an assignment or nothing, and perhaps a comment.
Numbers may carry low lines between their digits; strings are written in two kinds of quotes, on
one line or over several.

Main definitions:

* `Toml.basicString`, `Toml.literalString` — strings on one line;
* `Toml.longBasicString`, `Toml.longLiteralString` — strings over several lines;
* `Toml.key` — dotted keys;
* `Toml.integer`, `Toml.decimalFloat` — numbers;
* `Toml.value` — values;
* `Toml.line`, `Toml.document` — lines and documents;
* `Toml.parse?` — the table that a text is read as.
-/

import GitHooks.Config.Toml.Tree

set_option relaxedAutoImplicit false
set_option autoImplicit false

namespace GitHooks

namespace Config

namespace Toml

open Text

/-! ### Blanks, comments and line ends -/

/-- The blanks within a line. -/
def isBlank (c : Char) : Bool := c == ' ' || c == '\t'

/-- Skips the blanks within a line. -/
def blanks : Reader Char Unit := Reader.skipWhile isBlank

/-- Characters that are no control characters; a tab is none. -/
def isPlain (c : Char) : Bool := c == '\t' || (0x20 ≤ c.toNat && c.toNat ≠ 0x7F)

/-- The end of a line. -/
def newline : Reader Char Unit := Reader.word "\n".toList <|> Reader.word "\r\n".toList

/-- A comment, up to the end of its line. -/
def comment : Reader Char Unit := do
  Reader.only '#'
  Reader.skipWhile isPlain

/-- What may stand between the items of a list. -/
def gap : Reader Char Unit := do
  let _ ← Reader.many ((do let _ ← Reader.next isBlank) <|> newline <|> (do comment; newline))

/-- The rest of a line behind a statement. -/
def lineEnd : Reader Char Unit := do
  blanks
  let _ ← Reader.optional? comment
  newline <|> Reader.finished

/-! ### Strings -/

/-- Whether a character is a hexadecimal digit. -/
def isHexDigit (c : Char) : Bool :=
  c.isDigit || ('a' ≤ c && c ≤ 'f') || ('A' ≤ c && c ≤ 'F')

/-- The character with a code of exactly `count` hexadecimal digits. -/
def codePoint (count : Nat) : Reader Char Char := do
  let digits ← Reader.exactly count isHexDigit
  let code := digits.foldl (fun n c => 16 * n + hexDigitValue c) 0
  Reader.require (code < 0xD800 || (0xE000 ≤ code && code < 0x110000))
  return Char.ofNat code

/-- A character written behind a backslash. -/
def escaped : Reader Char Char := do
  Reader.only '\\'
  match ← Reader.next fun _ => true with
  | 'b' => return '\x08'
  | 't' => return '\t'
  | 'n' => return '\n'
  | 'f' => return '\x0c'
  | 'r' => return '\r'
  | '"' => return '"'
  | '\\' => return '\\'
  | 'u' => codePoint 4
  | 'U' => codePoint 8
  | _ => failure

/-- A string in double quotes on one line. -/
def basicString : Reader Char Text := do
  Reader.only '"'
  let text ← Reader.many (escaped <|> Reader.next fun c => isPlain c && c != '"' && c != '\\')
  Reader.only '"'
  return text

/-- A string in single quotes on one line, which knows no escapes. -/
def literalString : Reader Char Text := do
  Reader.only '\''
  let text ← Reader.takeWhile fun c => isPlain c && c != '\''
  Reader.only '\''
  return text

/-- A backslash at the end of a line, with all blanks and line ends behind it. -/
def continuation : Reader Char Unit := do
  Reader.only '\\'
  blanks
  newline
  let _ ← Reader.many ((do let _ ← Reader.next isBlank) <|> newline)

/-- One or two quotes that a third does not follow. -/
def innerQuotes (quote : Char) : Reader Char Text := do
  let quotes ← Reader.takeWhile1 (· == quote)
  Reader.require (quotes.length < 3)
  return quotes

/-- The three quotes that close a string, with up to two more in front of them that belong to it. -/
def closingQuotes (quote : Char) : Reader Char Text := do
  Reader.word [quote, quote, quote]
  let first ← Reader.optional? (Reader.only quote)
  let second ← if first.isSome then Reader.optional? (Reader.only quote) else pure none
  return List.replicate (first.toList.length + second.toList.length) quote

/-- A string over several lines, of pieces between triple quotes. -/
def longString (quote : Char) (piece : Reader Char Text) : Reader Char Text := do
  Reader.word [quote, quote, quote]
  let _ ← Reader.optional? newline
  let pieces ← Reader.many (piece <|> (do newline; return ['\n']) <|> innerQuotes quote)
  return pieces.flatten ++ (← closingQuotes quote)

/-- A string in triple double quotes. -/
def longBasicString : Reader Char Text :=
  longString '"' <|
    (do continuation; return [])
      <|> (do return [← escaped])
      <|> Reader.takeWhile1 fun c => isPlain c && c != '"' && c != '\\'

/-- A string in triple single quotes. -/
def longLiteralString : Reader Char Text :=
  longString '\'' (Reader.takeWhile1 fun c => isPlain c && c != '\'')

/-- A string. -/
def string : Reader Char Text := do
  if (← Reader.optional? (Reader.word "\"\"\"".toList)).isSome then failure
  else if (← Reader.optional? (Reader.word "'''".toList)).isSome then failure
  else basicString <|> literalString

/-- A string on one line or over several. -/
def anyString : Reader Char Text := longBasicString <|> longLiteralString <|> string

/-! ### Keys -/

/-- Whether a character can stand in a key without quotes. -/
def isKeyChar (c : Char) : Bool := c.isAlphanum || c == '_' || c == '-'

/-- One key of a dotted key, with the blanks around it. -/
def simpleKey : Reader Char Text := do
  blanks
  let key ← Reader.takeWhile1 isKeyChar <|> basicString <|> literalString
  blanks
  return key

/-- The deepest nesting of lists and inline tables, and the most keys of a dotted key. -/
def maxDepth : Nat := 79

/-- A dotted key: the path to a table, and a key in it. -/
def key : Reader Char (List Text × Text) := do
  let keys ← Reader.separated (Reader.only '.') simpleKey
  Reader.require (keys.length ≤ maxDepth)
  return (keys.dropLast, keys.getLast?.getD [])

/-! ### Numbers -/

/-- Digits with single low lines between them. -/
def digitRun (isDigit : Char → Bool) : Reader Char Text := do
  let first ← Reader.next isDigit
  let rest ← Reader.many (Reader.next isDigit <|> (do Reader.only '_'; Reader.next isDigit))
  return first :: rest

/-- A sign; it is negative for a minus. -/
def sign : Reader Char Bool :=
  (do Reader.only '-'; return true) <|> (do Reader.only '+'; return false) <|> pure false

/-- Decimal digits that do not begin with a superfluous zero. -/
def wholeDigits : Reader Char Text := do
  if (← Reader.peek?) = some '0' then
    Reader.only '0'
    return ['0']
  else digitRun Char.isDigit

/-- The value of digits in a base. -/
def inBase (base : Nat) (digits : Text) : Int :=
  digits.foldl (fun n c => base * n + hexDigitValue c) 0

/-- An integer behind the mark of a base. -/
def markedInteger (mark : Text) (base : Nat) (isDigit : Char → Bool) : Reader Char Int := do
  Reader.word mark
  return inBase base (← digitRun isDigit)

/-- An integer. -/
def integer : Reader Char Value := do
  let n ← markedInteger "0x" 16 isHexDigit
    <|> markedInteger "0o" 8 (fun c => '0' ≤ c && c ≤ '7')
    <|> markedInteger "0b" 2 (fun c => c == '0' || c == '1')
    <|> (do
      let negative ← sign
      let n := inBase 10 (← wholeDigits)
      return if negative then -n else n)
  Reader.ofOption (Value.integer? n)

/-- The digits behind a decimal point. -/
def fractionDigits : Reader Char Text := do
  Reader.only '.'
  digitRun Char.isDigit

/-- The number behind the mark of an exponent. -/
def exponent : Reader Char Int := do
  let _ ← Reader.next fun c => c == 'e' || c == 'E'
  let negative ← sign
  let size := digitsValue (← digitRun Char.isDigit)
  return if negative then -(size : Int) else size

/-- A decimal number with a fraction, an exponent or both.  One that is too large is refused, but
a negative one is the negative infinity. -/
def decimalFloat : Reader Char Value := do
  let negative ← sign
  let whole ← wholeDigits
  let fraction ← Reader.optional? fractionDigits
  let power ← Reader.optional? exponent
  Reader.require (fraction.isSome || power.isSome)
  let digits := whole ++ fraction.getD []
  let x := Binary64.ofDecimal (digitsValue digits) (power.getD 0 - (fraction.getD []).length)
  Reader.require (negative || x ≠ Binary64.infinity)
  return .float (x.withSign negative)

/-- Infinity, or a value that is no number. -/
def specialFloat : Reader Char Value := do
  let negative ← sign
  let x ← (do Reader.word "inf".toList; return Binary64.infinity)
    <|> (do Reader.word "nan".toList; return Binary64.notANumber)
  return .float (x.withSign negative)

/-- A moment, a floating point number or an integer. -/
def number : Reader Char Value :=
  (do return .moment (← Datetime.reader))
    <|> decimalFloat <|> specialFloat <|> integer

/-! ### Values -/

/-- The items of a list, with comments and line ends between them. -/
def listItems (item : Reader Char Node) : Reader Char (List Node) := do
  let items ← Reader.optional? <| Reader.separated (Reader.only ',') do
    gap
    let value ← item
    gap
    return value
  if items.isSome then
    let _ ← Reader.optional? (Reader.only ',')
  gap
  return items.getD []

/-- An assignment: a dotted key, and a value read by `item`. -/
def assignment (item : Reader Char Node) : Reader Char (List Text × Text × Node) := do
  let (path, key) ← key
  Reader.only '='
  blanks
  return (path, key, ← item)

/-- The assignments of an inline table. -/
def inlineItems (item : Reader Char Node) : Reader Char (List (List Text × Text × Node)) := do
  let items ← Reader.optional? <| Reader.separated (Reader.only ',') do
    let entry ← assignment item
    blanks
    return entry
  blanks
  return items.getD []

/-- A value nested in at most `depth` more lists and inline tables. -/
def value : Nat → Reader Char Node
  | 0 => Node.value <$> scalar
  | depth + 1 =>
    (do
      Reader.only '['
      let items ← listItems (value depth)
      Reader.only ']'
      return .list items)
    <|> (do
      Reader.only '\x7b'
      let assignments ← inlineItems (value depth)
      Reader.only '\x7d'
      Reader.ofOption (inlineTable assignments))
    <|> Node.value <$> scalar
where
  /-- A value that is neither a list nor an inline table. -/
  scalar : Reader Char Value :=
    (do return .text (← anyString))
      <|> (do Reader.word "true".toList; return .boolean true)
      <|> (do Reader.word "false".toList; return .boolean false)
      <|> number

/-! ### Documents -/

/-- A header of one table or of one more table of a list. -/
def header : Reader Char Statement :=
  (do
    Reader.word "[[".toList
    let (path, key) ← key
    Reader.word "]]".toList
    return .element path key)
  <|> (do
    Reader.only '['
    let (path, key) ← key
    Reader.only ']'
    return .header path key)

/-- The statement of a line. -/
def statement : Reader Char Statement :=
  header <|> (do
    let (path, key, node) ← assignment (value maxDepth)
    return .assignment path key node)

/-- A line, with the statement it holds. -/
def line : Reader Char (Option Statement) := do
  blanks
  let statement ← Reader.optional? statement
  lineEnd
  return statement

/-- The statements of a document; a byte order mark in front of it means nothing. -/
def document : Reader Char (List Statement) := do
  let _ ← Reader.optional? (Reader.only '\ufeff')
  return (← Reader.many line).filterMap id

/-- The table that a text is read as. -/
def parse? (content : Text) : Option Table := (Reader.run? document content).bind build

end Toml

end Config

end GitHooks
