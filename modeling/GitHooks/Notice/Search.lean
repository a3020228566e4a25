/-
**Finding the notice of a file.**

The lines of the header's segments are read one after the other, each without the markers of its
comment; the first that is a notice is the notice of the file.  A line whose years run backwards
is remarked on and passed over.

Main definitions:

* `Header.commentText` — the text of a comment line and the position it begins at;
* `Notice.readText`, `Notice.readLine` — a comment text, and a comment line, as a notice;
* `Notice.find` — the notice of a file, with the remarks made on the way.
-/

import GitHooks.Notice.Grammar
import GitHooks.Notice.Header

set_option relaxedAutoImplicit false
set_option autoImplicit false

namespace GitHooks

open Text

/-! ### Comment texts -/

namespace Header

/-- The number of characters that open a line comment: the marker, and after two slashes also the
mark of a documentation comment. -/
def lineOpeningLength (marker core : Text) : Nat :=
  if startsWith core marker then
    let rest := core.drop marker.length
    if marker = "//" ∧ (startsWith rest "!" ∨ startsWith rest "/") then marker.length + 1
    else marker.length
  else 0

/-- The number of characters that open a line of a block comment: the opening marker on its first
line, and stars that do not close the comment. -/
def blockOpeningLength (opening : Text) (first : Bool) (core : Text) : Nat :=
  let marker := if first then opening.length else 0
  let rest := core.drop marker
  if startsWith rest "*/" then marker else marker + (rest.takeWhile (· == '*')).length

/-- The number of characters that open a line of a docstring: the quote on its first line. -/
def docstringOpeningLength (first : Bool) (core : Text) : Nat :=
  if first then ((docstringQuote? core).map List.length).getD 0 else 0

/-- A text without the first of the given ends that it has. -/
def dropClosing (closings : List Text) (t : Text) : Text :=
  match closings.find? (endsWith t) with
  | some closing => t.take (t.length - closing.length)
  | none => t

/-- The number of characters that open a trimmed line under a marker. -/
def openingLength (comments : CommentStyle) (marker : Marker) (first : Bool) (core : Text) : Nat :=
  match marker, comments with
  | Marker.line, CommentStyle.line opening => lineOpeningLength opening core
  | Marker.line, CommentStyle.block _ _ => 0
  | Marker.block, CommentStyle.line _ => blockOpeningLength [] first core
  | Marker.block, CommentStyle.block opening _ => blockOpeningLength opening first core
  | Marker.docstring, _ => docstringOpeningLength first core

/-- The markers that can close a line under a marker. -/
def closings (comments : CommentStyle) : Marker → List Text
  | Marker.line => []
  | Marker.block => comments.trailing?.toList
  | Marker.docstring => docstringQuotes

/-- The text of a comment line without its markers, and the position in the line it begins at. -/
def commentText (comments : CommentStyle) (marker : Marker) (first : Bool) (line : Text) :
    Nat × Text :=
  let core := trim line
  let opening := openingLength comments marker first core
  (indentation line + opening, dropClosing (closings comments marker) (core.drop opening))

end Header

/-! ### The search -/

namespace Notice

/-- A comment text as a notice, where the text begins `offset` characters into the line with the
given index. -/
def readText (segment : Header.Segment) (offset index : Nat) (text : Text) :
    Except Malformed (Option Notice) :=
  match statement? text with
  | none => Except.ok none
  | some statement =>
    let notice : Notice :=
      { holder := statement.holder
        startYear := statement.startYear
        endYear := statement.endYear.map Int.ofNat
        line := index
        block := segment.lines
        marker := segment.marker
        years := statement.years.shift offset }
    match statement.endYear with
    | some endYear =>
      if endYear < statement.startYear then Except.error ⟨index + 1, statement.startYear, endYear⟩
      else Except.ok (some notice)
    | none => Except.ok (some notice)

/-- A line of a segment as a notice. -/
def readLine (comments : CommentStyle) (segment : Header.Segment) (line : Text) (index : Nat) :
    Except Malformed (Option Notice) :=
  let (offset, text) :=
    Header.commentText comments segment.marker (index == segment.lines.start) line
  readText segment offset index text

/-- The readings of the lines of a segment. -/
def readSegment (comments : CommentStyle) (lines : List Text) (segment : Header.Segment) :
    List (Except Malformed (Option Notice)) :=
  (segment.lines.slice lines.zipIdx).map fun (line, index) => readLine comments segment line index

/-- The notice of a file: the first in its header. -/
def find (language : Language) (lines : List Text) : Scan :=
  Scan.ofReadings
    ((Header.segments language lines).flatMap (readSegment language.comments lines))

end Notice

end GitHooks
