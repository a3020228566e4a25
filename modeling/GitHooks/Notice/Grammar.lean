/-
**What makes a line a notice.**

After white space a notice begins with one or more signifiers: the word copyright in any case, a
letter c in parentheses, the copyright sign.  In the rest the first word of exactly four digits is
the year, and a hyphen with another such word behind it makes it a range.  What stands before and
after the years is the holder, who must not be missing.

Main definitions:

* `Notice.signifierLength`, `Notice.afterSignifiers?` — signifiers, and the text behind them;
* `Notice.YearField`, `Notice.yearField?` — the years, with the texts around them;
* `Notice.holderOf` — the holder from the texts around the years;
* `Notice.Statement`, `Notice.statement?` — what a comment text states, if it is a notice.

Main results:

* `Notice.text_yearField?` — the parts of a year field put together are the text.
-/

import GitHooks.Notice.Basic
import GitHooks.Text.Space
import GitHooks.Text.Word

set_option relaxedAutoImplicit false
set_option autoImplicit false

namespace GitHooks

namespace Notice

open Text

/-! ### Signifiers -/

/-- The number of characters of the signifier that a text begins with; zero where there is none. -/
def signifierLength (t : Text) : Nat :=
  if (t.take 9).map Char.toLower = "copyright" ∧ startsInWord (t.drop 9) = false then 9
  else if (t.take 3).map Char.toLower = "(c)" then 3
  else if startsWith t "©" then 1
  else 0

/-- A text without the signifiers and the white space it begins with, where `passing` characters
of a signifier are still to be passed over. -/
def skipSignifiers : Nat → Text → Text
  | _, [] => []
  | passing + 1, _ :: t => skipSignifiers passing t
  | 0, c :: t =>
    if isSpace c then skipSignifiers 0 t
    else
      match signifierLength (c :: t) with
      | 0 => c :: t
      | length + 1 => skipSignifiers length t

/-- What stands behind the signifiers of a text, if it begins with one. -/
def afterSignifiers? (t : Text) : Option Text :=
  if signifierLength (trimStart t) = 0 then none else some (skipSignifiers 0 t)

/-! ### Years -/

/-- The word of exactly four digits that a text begins with, and what follows it. -/
def yearAt? (t : Text) : Option (Text × Text) :=
  let digits := t.take 4
  if digits.length = 4 ∧ digits.all Char.isDigit ∧ startsInWord (t.drop 4) = false then
    some (digits, t.drop 4)
  else none

/-- The separator and the second year of a range, and what follows, for the text behind the first
year. -/
def rangeAt? (t : Text) : Option (Text × Text × Text) :=
  match t.dropWhile isSpace with
  | '-' :: u =>
    (yearAt? (u.dropWhile isSpace)).map fun (digits, after) =>
      (t.takeWhile isSpace ++ '-' :: u.takeWhile isSpace, digits, after)
  | _ => none

/-- The first year field of a text, with the texts around it. -/
structure YearField where
  before : Text
  /-- The digits of the first year. -/
  first : Text
  /-- The separator and the digits of the second year of a range. -/
  second : Option (Text × Text)
  after : Text
deriving DecidableEq, Repr, Inhabited

namespace YearField

/-- The characters of the field itself. -/
def text (field : YearField) : Text :=
  field.first ++ match field.second with
    | some (separator, digits) => separator ++ digits
    | none => []

/-- The field with a character put in front of the text before it. -/
def push (c : Char) (field : YearField) : YearField := { field with before := c :: field.before }

end YearField

/-- The year field that a text begins with. -/
def fieldAt? (t : Text) : Option YearField :=
  (yearAt? t).map fun (digits, after) =>
    match rangeAt? after with
    | some (separator, digits', after') => ⟨[], digits, some (separator, digits'), after'⟩
    | none => ⟨[], digits, none, after⟩

/-- The first year field of a text; `inWord` tells whether a word character precedes the text. -/
def yearFieldFrom? (inWord : Bool) : Text → Option YearField
  | [] => none
  | c :: t =>
    match if inWord then none else fieldAt? (c :: t) with
    | some field => some field
    | none => (yearFieldFrom? (isWord c) t).map (YearField.push c)

/-- The first year field of a text. -/
def yearField? (t : Text) : Option YearField := yearFieldFrom? false t

theorem append_of_yearAt? {t digits after : Text} (h : yearAt? t = some (digits, after)) :
    digits ++ after = t := by
  simp only [yearAt?] at h
  split at h
  · simp only [Option.some.injEq, Prod.mk.injEq] at h
    rw [← h.1, ← h.2, List.take_append_drop]
  · simp at h

theorem append_of_rangeAt? {t separator digits after : Text}
    (h : rangeAt? t = some (separator, digits, after)) : separator ++ digits ++ after = t := by
  unfold rangeAt? at h
  split at h
  · next u hu =>
    simp only [Option.map_eq_some_iff, Prod.mk.injEq, Prod.exists] at h
    obtain ⟨d, a, hy, hs, rfl, rfl⟩ := h
    have hd := append_of_yearAt? hy
    rw [← hs]
    conv => rhs; rw [← List.takeWhile_append_dropWhile (p := isSpace) (l := t), hu]
    conv => rhs; rw [← List.takeWhile_append_dropWhile (p := isSpace) (l := u), ← hd]
    simp
  · simp at h

theorem text_fieldAt? {t : Text} {field : YearField} (h : fieldAt? t = some field) :
    field.before ++ field.text ++ field.after = t := by
  simp only [fieldAt?, Option.map_eq_some_iff, Prod.exists] at h
  obtain ⟨digits, after, hy, rfl⟩ := h
  split
  · next hr =>
    have := append_of_rangeAt? hr
    rw [← append_of_yearAt? hy, ← this]
    simp [YearField.text]
  · rw [← append_of_yearAt? hy]
    simp [YearField.text]

theorem text_yearFieldFrom? {inWord : Bool} {t : Text} {field : YearField}
    (h : yearFieldFrom? inWord t = some field) :
    field.before ++ field.text ++ field.after = t := by
  induction t generalizing inWord field with
  | nil => simp [yearFieldFrom?] at h
  | cons c t ih =>
    simp only [yearFieldFrom?] at h
    split at h
    · next hf =>
      obtain rfl := Option.some.inj h
      cases inWord with
      | true => simp at hf
      | false => exact text_fieldAt? (by simpa using hf)
    · simp only [Option.map_eq_some_iff] at h
      obtain ⟨inner, hi, rfl⟩ := h
      have := ih hi
      simpa [YearField.push, YearField.text] using this

/-- The parts of a year field put together are the text. -/
theorem text_yearField? {t : Text} {field : YearField} (h : yearField? t = some field) :
    field.before ++ field.text ++ field.after = t := text_yearFieldFrom? h

/-! ### The holder -/

/-- Whether a character is passed over at the ends of a holder's name. -/
def isHolderEdge (c : Char) : Bool := c == ',' || isSpace c

/-- The holder, from the texts before and after the years. -/
def holderOf (before after : Text) : Text :=
  stripBoth isHolderEdge
    (joinWith " " ([trim before, trim after].filter fun part => !part.isEmpty))

/-! ### Statements -/

/-- What a comment text states. -/
structure Statement where
  holder : Text
  startYear : Nat
  endYear : Option Nat
  /-- The characters of the text that give the years. -/
  years : Span
deriving DecidableEq, Repr, Inhabited

/-- What a comment text states, if it has the parts of a notice. -/
def statement? (t : Text) : Option Statement :=
  (afterSignifiers? t).bind fun rest =>
    (yearField? rest).bind fun field =>
      let holder := holderOf field.before field.after
      if holder.isEmpty then none
      else
        let start := (t.length - rest.length) + field.before.length
        some
          { holder
            startYear := digitsValue field.first
            endYear := field.second.map fun second => digitsValue second.2
            years := ⟨start, start + field.text.length⟩ }

end Notice

end GitHooks
