/-
**Texts as bytes.**

Files hold bytes; a text is written in UTF-8, and bytes that are not UTF-8 are no text.  The
output of another program is read more leniently: each longest part of a character that breaks
off, and each byte that begins none, is read as the replacement character.

Main definitions:

* `Text.encode`, `Text.decode?` — texts as bytes of UTF-8;
* `Text.Pending`, `Text.leadByte` — a character of which bytes are missing;
* `Text.decodeLossy` — bytes as a text in any case.

Main results:

* `Text.decode?_encode` — a text is read back from its bytes.
-/

import GitHooks.Text.Basic

set_option relaxedAutoImplicit false
set_option autoImplicit false

namespace GitHooks

namespace Text

/-! ### Exact reading -/

/-- The bytes of a text. -/
def encode (t : Text) : ByteArray := (String.ofList t).toUTF8

/-- The text of some bytes, if they are UTF-8. -/
def decode? (bytes : ByteArray) : Option Text := bytes.utf8Decode?.map Array.toList

@[simp] theorem decode?_encode (t : Text) : decode? (encode t) = some t := by
  simp [decode?, encode, String.toUTF8_eq_toByteArray, String.toByteArray_ofList]

/-! ### Lenient reading -/

/-- What stands for bytes that are no character. -/
def replacement : Char := '\ufffd'

/-- A character of which bytes are missing: their number, the bounds of the next one, and the code
so far. -/
structure Pending where
  missing : Nat
  low : Nat
  high : Nat
  code : Nat
deriving DecidableEq, Repr, Inhabited

/-- What a byte begins: a text that is complete, or a character of which bytes are missing. -/
def leadByte (byte : Nat) : Text × Option Pending :=
  if byte < 0x80 then ([Char.ofNat byte], none)
  else if 0xC2 ≤ byte ∧ byte ≤ 0xDF then ([], some ⟨1, 0x80, 0xBF, byte - 0xC0⟩)
  else if byte = 0xE0 then ([], some ⟨2, 0xA0, 0xBF, 0⟩)
  else if byte = 0xED then ([], some ⟨2, 0x80, 0x9F, 0xD⟩)
  else if 0xE1 ≤ byte ∧ byte ≤ 0xEF then ([], some ⟨2, 0x80, 0xBF, byte - 0xE0⟩)
  else if byte = 0xF0 then ([], some ⟨3, 0x90, 0xBF, 0⟩)
  else if byte = 0xF4 then ([], some ⟨3, 0x80, 0x8F, 4⟩)
  else if 0xF1 ≤ byte ∧ byte ≤ 0xF3 then ([], some ⟨3, 0x80, 0xBF, byte - 0xF0⟩)
  else ([replacement], none)

/-- What one more byte makes of a character of which bytes are missing. -/
def goOn (pending : Pending) (byte : Nat) : Text × Option Pending :=
  if pending.low ≤ byte ∧ byte ≤ pending.high then
    let code := pending.code * 0x40 + (byte - 0x80)
    if pending.missing ≤ 1 then ([Char.ofNat code], none)
    else ([], some ⟨pending.missing - 1, 0x80, 0xBF, code⟩)
  else
    let (text, next) := leadByte byte
    (replacement :: text, next)

/-- The text of some bytes behind the beginning of a character. -/
def decodeLossyFrom : Option Pending → List UInt8 → Text
  | none, [] => []
  | some _, [] => [replacement]
  | pending, byte :: rest =>
    let (text, next) := match pending with
      | none => leadByte byte.toNat
      | some pending => goOn pending byte.toNat
    text ++ decodeLossyFrom next rest

/-- The text of some bytes, with replacements for what is not UTF-8. -/
def decodeLossy (bytes : ByteArray) : Text := decodeLossyFrom none bytes.data.toList

end Text

end GitHooks
