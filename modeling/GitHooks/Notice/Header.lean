/-
**The header of a file.**

Only the top of a file is searched for a notice: a shebang, encoding pragmas, blank lines,
comments and, for languages that have them, one docstring.  The first line that is none of these
ends the header.  Comments and docstrings are its segments; a block comment or docstring runs to
the line that holds its closing marker, or to the end of the file.

Main definitions:

* `Header.isShebang`, `Header.isEncodingPragma`, `Header.docstringQuote?` — kinds of lines;
* `Header.preambleLength` — the number of lines that have to stay first in the file;
* `Header.Segment`, `Header.segments` — the segments of the header, in order.

Main results:

* `Header.blockLength_pos`, `Header.blockLength_le` — a block has at least its first line and
  stays within the file.
-/

import GitHooks.Language
import GitHooks.Notice.Basic
import GitHooks.Text.Space

set_option relaxedAutoImplicit false
set_option autoImplicit false

namespace GitHooks

namespace Header

open Text

/-! ### Kinds of lines -/

/-- Whether a line names the interpreter of a script. -/
def isShebang (line : Text) : Bool := startsWith line "#!"

/-- Whether a line is a hash comment that declares an encoding. -/
def isEncodingPragma (line : Text) : Bool :=
  let line := trimStart line
  startsWith line "#" && (occursIn "coding:" line || occursIn "coding=" line)

/-- The quotes that a docstring can be written in. -/
def docstringQuotes : List Text := ["\"\"\"", "'''"]

/-- The quote that a line opens a docstring with. -/
def docstringQuote? (line : Text) : Option Text :=
  docstringQuotes.find? fun quote => startsWith (trimStart line) quote

/-- Whether the first of some lines names an interpreter. -/
def beginsWithShebang : List Text → Bool
  | [] => false
  | line :: _ => isShebang line

/-- Whether the first of some lines declares an encoding. -/
def beginsWithPragma : List Text → Bool
  | [] => false
  | line :: _ => isEncodingPragma line

/-- The number of lines, a shebang and then an encoding pragma, that have to stay first. -/
def preambleLength (lines : List Text) : Nat :=
  let shebang := (beginsWithShebang lines).toNat
  shebang + (beginsWithPragma (lines.drop shebang)).toNat

theorem preambleLength_le (lines : List Text) : preambleLength lines ≤ lines.length := by
  cases lines with
  | nil => simp [preambleLength, beginsWithShebang, beginsWithPragma]
  | cons line lines =>
    unfold preambleLength
    cases hs : beginsWithShebang (line :: lines) with
    | false =>
      simp only [Bool.toNat_false, List.drop_zero, Nat.zero_add, List.length_cons]
      have := (beginsWithPragma (line :: lines)).toNat_le
      omega
    | true =>
      simp only [Bool.toNat_true, List.drop_succ_cons, List.drop_zero, List.length_cons]
      cases lines with
      | nil => simp [beginsWithPragma]
      | cons second lines =>
        have := (beginsWithPragma (second :: lines)).toNat_le
        simp only [List.length_cons]
        omega

/-! ### Segments -/

/-- A run of lines of the header that one marker wraps. -/
structure Segment where
  lines : Span
  marker : Marker
deriving DecidableEq, Repr, Inhabited

/-- The number of lines of a block, given what its first line holds after the opening marker and
the lines that follow. -/
def blockLength (closing afterOpening : Text) (following : List Text) : Nat :=
  if occursIn closing afterOpening then 1
  else
    match following.findIdx? (occursIn closing) with
    | some offset => offset + 2
    | none => following.length + 1

theorem blockLength_pos (closing afterOpening : Text) (following : List Text) :
    0 < blockLength closing afterOpening following := by
  unfold blockLength
  split
  · decide
  · split <;> omega

theorem blockLength_le (closing afterOpening : Text) (following : List Text) :
    blockLength closing afterOpening following ≤ following.length + 1 := by
  unfold blockLength
  split
  · omega
  · split
    · next offset h =>
      have := (List.findIdx?_eq_some_iff_findIdx_eq.1 h).1
      omega
    · omega

/-- The marker and the number of lines of the comment that a trimmed line opens. -/
def commentAt? (comments : CommentStyle) (line : Text) (following : List Text) :
    Option (Marker × Nat) :=
  match comments with
  | CommentStyle.line marker => if startsWith line marker then some (Marker.line, 1) else none
  | CommentStyle.block opening closing =>
    (dropLeading? opening line).map fun afterOpening =>
      (Marker.block, blockLength closing afterOpening following)

/-- The marker and the number of lines of the docstring that a trimmed line opens. -/
def docstringAt? (line : Text) (following : List Text) : Option (Marker × Nat) :=
  (docstringQuote? line).map fun quote =>
    (Marker.docstring, blockLength quote (line.drop quote.length) following)

/-- The marker and the number of lines of the segment that a trimmed line opens; a docstring
counts only while none has been seen. -/
def segmentAt? (language : Language) (docstringSeen : Bool) (line : Text)
    (following : List Text) : Option (Marker × Nat) :=
  (commentAt? language.comments line following).or
    (if language.docstrings && !docstringSeen then docstringAt? line following else none)

/-- The segments among some lines, the first of which has the given index. -/
def segmentsFrom (language : Language) (docstringSeen : Bool) (index : Nat) :
    List Text → List Segment
  | [] => []
  | line :: following =>
    if isBlank line || isEncodingPragma line then
      segmentsFrom language docstringSeen (index + 1) following
    else
      match segmentAt? language docstringSeen (trim line) following with
      | none => []
      | some (marker, count) =>
        ⟨⟨index, index + count⟩, marker⟩
          :: segmentsFrom language (docstringSeen || marker == Marker.docstring) (index + count)
            (following.drop (count - 1))
termination_by lines => lines.length
decreasing_by
  all_goals simp only [List.length_cons, List.length_drop]; omega

/-- The segments of the header of a file, in order. -/
def segments (language : Language) (lines : List Text) : List Segment :=
  let first := (beginsWithShebang lines).toNat
  segmentsFrom language false first (lines.drop first)

end Header

end GitHooks
