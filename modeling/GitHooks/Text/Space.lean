/-
**White space and blank lines.**

White space is the Unicode property of that name: the separators of the Latin and General
Punctuation blocks, the ideographic space, the two line separators and the control characters
from tab to carriage return.  Trimming, blankness of a line and the gaps between the words of a
notice all use this one class.

Main definitions:

* `Text.isSpace` — the class;
* `Text.trimStart`, `Text.trimEnd`, `Text.trim` — a text without white space at its ends;
* `Text.isBlank` — a text of white space only;
* `Text.indentation` — the number of characters of white space a text begins with.

Main results:

* `Text.isBlank_iff_trim_eq_nil` — a text is blank exactly when nothing is left of it by trimming.
-/

import GitHooks.Text.Basic

set_option relaxedAutoImplicit false
set_option autoImplicit false

namespace GitHooks

namespace Text

/-! ### The class -/

/-- Characters with the Unicode property White_Space. -/
def isSpace (c : Char) : Bool :=
  let n := c.toNat
  (0x09 ≤ n && n ≤ 0x0D) || n == 0x20 || n == 0x85 || n == 0xA0 || n == 0x1680
    || (0x2000 ≤ n && n ≤ 0x200A) || n == 0x2028 || n == 0x2029 || n == 0x202F || n == 0x205F
    || n == 0x3000

/-! ### Trimming -/

/-- A text without the white space it begins with. -/
def trimStart (t : Text) : Text := t.dropWhile isSpace

/-- A text without the white space it ends with. -/
def trimEnd : Text → Text
  | [] => []
  | c :: t =>
    match trimEnd t with
    | [] => if isSpace c then [] else [c]
    | d :: u => c :: d :: u

/-- A text without the white space at both of its ends. -/
def trim (t : Text) : Text := trimEnd (trimStart t)

/-- Whether a text consists of white space only. -/
def isBlank (t : Text) : Bool := t.all isSpace

/-- The number of characters of white space that a text begins with. -/
def indentation (t : Text) : Nat := (t.takeWhile isSpace).length

/-- A text without the characters at both of its ends that satisfy `p`. -/
def stripBoth (p : Char → Bool) (t : Text) : Text :=
  (((t.dropWhile p).reverse).dropWhile p).reverse

@[simp] theorem trimEnd_nil : trimEnd [] = [] := rfl

@[simp] theorem trim_nil : trim [] = [] := rfl

theorem trimEnd_eq_nil_iff {t : Text} : trimEnd t = [] ↔ isBlank t = true := by
  induction t with
  | nil => simp [isBlank]
  | cons c t ih =>
    simp only [isBlank] at ih
    cases h : trimEnd t with
    | nil => by_cases hc : isSpace c <;> simp_all [trimEnd, isBlank]
    | cons d u => simp_all [trimEnd, isBlank]

/-- Nothing is left of a text by trimming exactly when it is blank. -/
theorem isBlank_iff_trim_eq_nil {t : Text} : isBlank t = true ↔ trim t = [] := by
  rw [trim, trimEnd_eq_nil_iff]
  induction t with
  | nil => simp [isBlank, trimStart]
  | cons c t ih =>
    by_cases hc : isSpace c
    · simpa [isBlank, trimStart, hc] using ih
    · simp [isBlank, trimStart, hc]

end Text

end GitHooks
