/-
**Settings in JSON.**

A document is one object between blanks.  There is no null among the values of a configuration,
and nesting ends at a depth of 127.  Whole numbers are integers as far as 64 bits reach and
floating point numbers beyond; a number with a fraction or an exponent collects its digits in 64
bits, drops the ones that no longer fit, and is then scaled by its power of ten.

Main definitions:

* `Json.Number`, `Json.number` — numbers as they are written;
* `Json.float?`, `Json.numberValue?` — the value of a number;
* `Json.string` — strings;
* `Json.value`, `Json.document` — values and documents;
* `Json.parse?` — the table that a text is read as.
-/

import GitHooks.Config.Value

set_option relaxedAutoImplicit false
set_option autoImplicit false

namespace GitHooks

namespace Config

namespace Json

open Text

/-! ### Blanks -/

/-- The blanks between the parts of a document. -/
def isBlank (c : Char) : Bool := c == ' ' || c == '\t' || c == '\n' || c == '\r'

/-- What a reader takes, and the blanks behind it. -/
def token {α : Type} (reader : Reader Char α) : Reader Char α := do
  let value ← reader
  Reader.skipWhile isBlank
  return value

/-! ### Numbers -/

/-- A number as it is written: the digits before and behind the point, and the exponent. -/
structure Number where
  negative : Bool
  whole : Text
  fraction : Text
  exponent : Option Int
deriving DecidableEq, Repr, Inhabited

/-- The digits behind a point. -/
def fractionDigits : Reader Char Text := do
  Reader.only '.'
  Reader.takeWhile1 Char.isDigit

/-- The number behind the mark of an exponent. -/
def exponent : Reader Char Int := do
  let _ ← Reader.next fun c => c == 'e' || c == 'E'
  let negative ← (do Reader.only '-'; return true) <|> (do Reader.only '+'; return false)
    <|> pure false
  let size := digitsValue (← Reader.takeWhile1 Char.isDigit)
  return if negative then -(size : Int) else size

/-- A number as it is written.  A zero is followed by no other digit, and what begins like a
fraction or an exponent has to be one. -/
def number : Reader Char Number := do
  let negative := (← Reader.optional? (Reader.only '-')).isSome
  let whole ← Reader.takeWhile1 Char.isDigit
  Reader.require (whole.length = 1 || whole.head? ≠ some '0')
  let fraction ← if (← Reader.peek?) = some '.' then fractionDigits else pure []
  let mark ← Reader.peek?
  let power ← if mark = some 'e' ∨ mark = some 'E' then some <$> exponent else pure none
  return ⟨negative, whole, fraction, power⟩

/-- The bound of 64 bits without a sign. -/
def wordBound : Nat := twoTo 64

/-- A number with digits taken behind it as long as it stays below the bound, and the digits that
are left. -/
def collect (n : Nat) : Text → Nat × Text
  | [] => (n, [])
  | c :: digits =>
    let longer := 10 * n + digitsValue [c]
    if longer < wordBound then collect longer digits else (n, c :: digits)

/-- The largest exponent that is reckoned with. -/
def maxExponent : Nat := twoTo 31 - 1

/-- The value of the digits and the exponent of a number as a floating point number. -/
def float? (number : Number) : Option Binary64 :=
  let (head, unused) := collect 0 number.whole
  let (digits, left) := collect head number.fraction
  let shift : Int := (unused.length : Int) - ((number.fraction.length - left.length : Nat) : Int)
  let power := number.exponent.getD 0
  if power.natAbs > maxExponent then
    if power > 0 ∧ digits ≠ 0 then none else some ⟨0⟩
  else (Binary64.ofNat digits).scaleByTens (shift + power)

/-- The value of a number. -/
def numberValue? (number : Number) : Option Value :=
  let float := (float? number).map fun x => Value.float (x.withSign number.negative)
  if number.fraction.isEmpty ∧ number.exponent.isNone then
    let n := digitsValue number.whole
    if wordBound ≤ n then float
    else if number.negative then
      if n = 0 ∨ twoTo 63 < n then some (.float ((Binary64.ofNat n).withSign true))
      else Value.integer? (-n)
    else Value.integer? n
  else float

/-! ### Strings -/

/-- The value of four hexadecimal digits. -/
def codeUnit : Reader Char Nat := do
  let digits ← Reader.exactly 4 fun c => c.isDigit || ('a' ≤ c && c ≤ 'f') || ('A' ≤ c && c ≤ 'F')
  return digits.foldl (fun n c => 16 * n + hexDigitValue c) 0

/-- The character of a code unit, or of a pair of surrogates. -/
def escapedUnit : Reader Char Char := do
  let unit ← codeUnit
  if 0xDC00 ≤ unit ∧ unit ≤ 0xDFFF then failure
  else if 0xD800 ≤ unit ∧ unit ≤ 0xDBFF then
    Reader.word "\\u".toList
    let second ← codeUnit
    Reader.require (0xDC00 ≤ second && second ≤ 0xDFFF)
    return Char.ofNat (0x10000 + (unit - 0xD800) * 0x400 + (second - 0xDC00))
  else return Char.ofNat unit

/-- The character behind a backslash. -/
def escaped : Reader Char Char := do
  match ← Reader.next fun _ => true with
  | '"' => return '"'
  | '\\' => return '\\'
  | '/' => return '/'
  | 'b' => return '\x08'
  | 'f' => return '\x0c'
  | 'n' => return '\n'
  | 'r' => return '\r'
  | 't' => return '\t'
  | 'u' => escapedUnit
  | _ => failure

/-- A character of a string; control characters are not. -/
def stringChar : Reader Char Char := do
  match ← Reader.next fun c => c != '"' && 0x20 ≤ c.toNat with
  | '\\' => escaped
  | c => return c

/-- A string. -/
def string : Reader Char Text := do
  Reader.only '"'
  let text ← Reader.many stringChar
  Reader.only '"'
  return text

/-! ### Values -/

/-- Items with commas between them, up to a closing bracket. -/
def items {α : Type} (closing : Char) (item : Reader Char α) : Reader Char (List α) := do
  if (← Reader.peek?) = some closing then
    token (Reader.only closing)
    return []
  else
    let items ← Reader.separated (token (Reader.only ',')) item
    token (Reader.only closing)
    return items

/-- An entry of an object. -/
def member (value : Reader Char Value) : Reader Char (Text × Value) := do
  let key ← token string
  token (Reader.only ':')
  return (key, ← value)

/-- The entries of an object, in the order in which they are written. -/
def object (value : Reader Char Value) : Reader Char (List (Text × Value)) := do
  token (Reader.only '\x7b')
  items '\x7d' (member value)

/-- The deepest nesting of lists and objects. -/
def maxDepth : Nat := 127

/-- A value nested in at most `depth` more lists and objects. -/
def value : Nat → Reader Char Value
  | 0 => scalar
  | depth + 1 => do
    match ← Reader.peek? with
    | some '[' =>
      token (Reader.only '[')
      return .list (← items ']' (value depth))
    | some '\x7b' => Reader.ofOption (nested? (← object (value depth)))
    | _ => scalar
where
  /-- A value that is neither a list nor an object. -/
  scalar : Reader Char Value := do
    match ← Reader.peek? with
    | some '"' => return .text (← token string)
    | some 't' => token (Reader.word "true".toList); return .boolean true
    | some 'f' => token (Reader.word "false".toList); return .boolean false
    | _ => Reader.ofOption (numberValue? (← token number))

/-- A document: one object between blanks.  Of entries with one key the last wins. -/
def document : Reader Char Table := do
  Reader.skipWhile isBlank
  return Entries.ofList (← object (value (maxDepth - 1)))

/-- The table that a text is read as. -/
def parse? (content : Text) : Option Table := Reader.run? document content

end Json

end Config

end GitHooks
