/-
**Classes of characters and decimal notation.**

Digits, white space and word characters are told apart by their code points.  A number that is
written in decimal notation is read back, and a numeral that does not begin with a zero is written
back.

Main results:

* `Text.isWord_of_isSpace`, `Text.isSpace_of_isDigit` — the classes are disjoint where they should
  be;
* `Text.digitsValue_ofNat`, `Text.ofNat_digitsValue_concat` — reading and writing numerals.
-/

import GitHooks.Text.Space
import GitHooks.Text.Word

set_option relaxedAutoImplicit false
set_option autoImplicit false

namespace GitHooks

namespace Text

/-! ### Classes of characters -/

/-- The code points of white space. -/
def spaceCodes : List Nat :=
  [0x09, 0x0A, 0x0B, 0x0C, 0x0D, 0x20, 0x85, 0xA0, 0x1680, 0x2000, 0x2001, 0x2002, 0x2003, 0x2004,
    0x2005, 0x2006, 0x2007, 0x2008, 0x2009, 0x200A, 0x2028, 0x2029, 0x202F, 0x205F, 0x3000]

theorem toNat_mem_spaceCodes {c : Char} (h : isSpace c = true) : c.toNat ∈ spaceCodes := by
  simp only [isSpace, Bool.or_eq_true, Bool.and_eq_true, decide_eq_true_eq, beq_iff_eq] at h
  simp only [spaceCodes, List.mem_cons, List.not_mem_nil, or_false]
  omega

/-- White space is no part of a word. -/
theorem isWord_of_isSpace {c : Char} (h : isSpace c = true) : isWord c = false := by
  have hall : ∀ n ∈ spaceCodes, isWord (Char.ofNat n) = false := by decide +kernel
  have := hall c.toNat (toNat_mem_spaceCodes h)
  rwa [Char.ofNat_toNat] at this

theorem isDigit_iff {c : Char} : c.isDigit = true ↔ 48 ≤ c.toNat ∧ c.toNat ≤ 57 :=
  Char.isDigit_iff_toNat

theorem isSpace_of_isDigit {c : Char} (h : c.isDigit = true) : isSpace c = false := by
  rw [isDigit_iff] at h
  simp only [isSpace, Bool.or_eq_false_iff, Bool.and_eq_false_iff, decide_eq_false_iff_not,
    beq_eq_false_iff_ne]
  omega

/-- Only the capital letters of ASCII have a lower case of their own. -/
theorem toLower_eq_self {c : Char} (h : ¬ (65 ≤ c.toNat ∧ c.toNat ≤ 90)) : c.toLower = c := by
  have hcapital : ¬ (c.val ≥ 'A'.val ∧ c.val ≤ 'Z'.val) := by
    rintro ⟨hlow, hhigh⟩
    have hA : 65 ≤ c.toNat := UInt32.le_iff_toNat_le.1 hlow
    have hZ : c.toNat ≤ 90 := UInt32.le_iff_toNat_le.1 hhigh
    exact h ⟨hA, hZ⟩
  exact dif_neg hcapital

theorem toLower_of_isDigit {c : Char} (h : c.isDigit = true) : c.toLower = c := by
  rw [isDigit_iff] at h
  exact toLower_eq_self (by omega)

/-- White space has no other case. -/
theorem toLower_of_isSpace {c : Char} (h : isSpace c = true) : c.toLower = c := by
  have hall : ∀ n ∈ spaceCodes, (Char.ofNat n).toLower = Char.ofNat n := by decide
  have := hall c.toNat (toNat_mem_spaceCodes h)
  rwa [Char.ofNat_toNat] at this

/-- Whether a text has no digit. -/
def isDigitFree (t : Text) : Bool := t.all fun c => !c.isDigit

theorem not_mem_of_isDigitFree {t : Text} (ht : isDigitFree t = true) {c : Char}
    (hc : c.isDigit = true) : c ∉ t := by
  intro hm
  have := List.all_eq_true.1 ht c hm
  simp [hc] at this

/-! ### Decimal notation -/

theorem digitsValue_ofNat (n : Nat) : digitsValue (ofNat n) = n := by
  have := Nat.ofDigitChars_ten_toDigits (n := n)
  rwa [Nat.ofDigitChars_eq_foldl] at this

theorem isDigit_of_mem_ofNat {n : Nat} {c : Char} (h : c ∈ ofNat n) : c.isDigit = true :=
  Nat.isDigit_of_mem_toDigits (by decide) (by decide) h

theorem digitsValue_concat (t : Text) (c : Char) :
    digitsValue (t ++ [c]) = 10 * digitsValue t + (c.toNat - 48) := by
  simp [digitsValue]

theorem ofNat_digit {c : Char} (h : c.isDigit = true) : ofNat (c.toNat - 48) = [c] := by
  have hall : ∀ d < 10, ofNat d = [Char.ofNat (48 + d)] := by decide
  rw [isDigit_iff] at h
  rw [hall _ (by omega), show 48 + (c.toNat - 48) = c.toNat by omega, Char.ofNat_toNat]

theorem ofNat_digitsValue_concat {t : Text} {c : Char} (ht : 0 < digitsValue t)
    (hc : c.isDigit = true) : ofNat (digitsValue (t ++ [c])) = ofNat (digitsValue t) ++ [c] := by
  rw [digitsValue_concat, ← ofNat_digit hc]
  rw [isDigit_iff] at hc
  exact (Nat.toDigits_append_toDigits (by decide) ht (by omega)).symm

end Text

end GitHooks
