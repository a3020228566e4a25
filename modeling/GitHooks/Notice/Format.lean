/-
**Writing notices.**

The wording of a notice is a format in which two placeholders stand for the holder's name and for
the years; a format without one of them is refused.  A notice is then wrapped in the comment
markers of a language, line by line.

Main definitions:

* `NoticeFormat.yearSlot`, `NoticeFormat.nameSlot` — the placeholders;
* `NoticeFormat.Fault`, `NoticeFormat.check` — what a format lacks;
* `NoticeFormat.standard` — the format used when none is given;
* `Notice.yearsText` — one year, or a range;
* `Notice.plainLines` — the lines of a notice without markers;
* `Notice.commentLines` — the lines of a notice in comment markers.
-/

import GitHooks.Language
import GitHooks.Text.Lines
import GitHooks.Text.Space

set_option relaxedAutoImplicit false
set_option autoImplicit false

namespace GitHooks

open Text

/-! ### Formats -/

namespace NoticeFormat

/-- The placeholder for the years. -/
def yearSlot : Text := "\x7byear\x7d"

/-- The placeholder for the holder's name. -/
def nameSlot : Text := "\x7bname\x7d"

/-- The format used when none is given. -/
def standard : Text := "Copyright (c) " ++ yearSlot ++ " " ++ nameSlot

/-- A format and the placeholders it lacks. -/
structure Fault where
  format : Text
  missing : List Text
deriving DecidableEq, Repr, Inhabited

/-- What a user is told about a format that lacks placeholders. -/
def Fault.message (fault : Fault) : Text :=
  "the format string '" ++ fault.format ++ "' is missing the required placeholder(s): "
    ++ joinWith ", " fault.missing

/-- The placeholders that a format lacks. -/
def missingSlots (format : Text) : List Text :=
  [nameSlot, yearSlot].filter fun slot => !occursIn slot format

/-- Refuses a format that lacks a placeholder. -/
def check (format : Text) : Except Fault Unit :=
  match missingSlots format with
  | [] => Except.ok ()
  | missing => Except.error ⟨format, missing⟩

theorem check_eq_ok_iff {format : Text} :
    check format = Except.ok () ↔
      occursIn nameSlot format = true ∧ occursIn yearSlot format = true := by
  unfold check
  cases hn : occursIn nameSlot format <;> cases hy : occursIn yearSlot format <;>
    simp [missingSlots, hn, hy]

end NoticeFormat

/-! ### Notices -/

namespace Notice

/-- One year, or a range when the years differ. -/
def yearsText (startYear : Int) : Option Int → Text
  | some endYear =>
    if endYear = startYear then ofInt startYear
    else ofInt startYear ++ " - " ++ ofInt endYear
  | none => ofInt startYear

/-- The text of a notice in a format, without markers. -/
def fill (name years format : Text) : Text :=
  replaceAll NoticeFormat.nameSlot name (replaceAll NoticeFormat.yearSlot years format)

/-- The lines of a notice without markers. -/
def plainLines (name : Text) (startYear : Int) (endYear : Option Int) (format : Text) :
    Except NoticeFormat.Fault (List Text) :=
  (NoticeFormat.check format).map fun _ => lines (fill name (yearsText startYear endYear) format)

/-- A line behind the opening marker, unless it begins with it already. -/
def withLeading (leading line : Text) : Text :=
  if startsWith (trimStart line) leading then line else trimEnd (leading ++ " " ++ line)

/-- A line before the closing marker, unless it ends with it already. -/
def withTrailing (trailing? : Option Text) (line : Text) : Text :=
  match trailing? with
  | some trailing => if endsWith line trailing then line else line ++ " " ++ trailing
  | none => line

/-- A line in the markers of a comment. -/
def wrapLine (comments : CommentStyle) (line : Text) : Text :=
  withTrailing comments.trailing? (withLeading comments.leading line)

/-- The lines of a notice in the markers of comments. -/
def commentLines (name : Text) (startYear : Int) (endYear : Option Int) (format : Text)
    (comments : CommentStyle) : Except NoticeFormat.Fault (List Text) :=
  (plainLines name startYear endYear format).map (List.map (wrapLine comments))

end Notice

end GitHooks
