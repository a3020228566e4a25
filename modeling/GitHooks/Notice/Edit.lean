/-
**Adding and updating notices.**

Both edits take the lines of a file to new lines.  Adding puts a notice for the current year
behind the preamble of a file that has none, with one blank line on either side, or into the
docstring of a module.  Updating changes the years of the notice a file has, and nothing else.

Main definitions:

* `NoticeSettings` — what a notice for one file is made from;
* `Edit` — new lines, and what the search for a notice brought;
* `Notice.add` — a file with a notice;
* `Notice.update` — a file whose notice reaches the current year.
-/

import GitHooks.Notice.Format
import GitHooks.Notice.Search

set_option relaxedAutoImplicit false
set_option autoImplicit false

namespace GitHooks

open Text

/-! ### Edits -/

/-- What a notice for one file is made from. -/
structure NoticeSettings where
  name : Text
  format : Text
  /-- Whether the notice goes into the docstring of a module. -/
  docstring : Bool
deriving DecidableEq, Repr, Inhabited

/-- The outcome of an edit. -/
structure Edit where
  lines : List Text
  changed : Bool
  /-- The notice that the file had. -/
  notice : Option Notice
  warnings : List Malformed
deriving DecidableEq, Repr, Inhabited

/-- The edit that leaves the lines as they are. -/
def Edit.unchanged (lines : List Text) (scan : Scan) : Edit :=
  ⟨lines, false, scan.notice, scan.warnings⟩

namespace Notice

/-! ### Adding -/

/-- The lines from the first that is not blank. -/
def bodyOf (lines : List Text) : List Text := lines.dropWhile isBlank

/-- The preamble with the blank line that separates it from a notice. -/
def preambleLines (preamble : List Text) : List Text :=
  if preamble.isEmpty then [] else preamble ++ [[]]

/-- The body with the blank line that separates it from a notice. -/
def separated (body : List Text) : List Text := if body.isEmpty then [] else [] :: body

/-- The lines of a docstring that opens with a notice, and the rest of the body behind it.  The
docstring that the body begins with is used; where there is none, one is made. -/
def docstringLines (notice : List Text) (body : List Text) : List Text :=
  let text := joinWith "\n" notice
  let fresh := lines ("\"\"\"" ++ text ++ "\"\"\"") ++ separated body
  match body with
  | [] => fresh
  | first :: rest =>
    match Header.docstringQuote? first with
    | none => fresh
    | some quote =>
      let remainder := (trimStart first).drop quote.length
      lines (quote ++ text) ++ [[]] ++ (if isBlank remainder then [] else [remainder]) ++ rest

/-- The lines of a notice for `year`, with the body behind it. -/
def inserted (settings : NoticeSettings) (language : Language) (year : Int) (body : List Text) :
    Except NoticeFormat.Fault (List Text) :=
  if settings.docstring && language.docstrings then
    (plainLines settings.name year none settings.format).map fun notice =>
      docstringLines notice body
  else
    (commentLines settings.name year none settings.format language.comments).map fun notice =>
      notice ++ separated body

/-- A file with a notice for `year`; one that has a notice is left as it is. -/
def add (lines : List Text) (settings : NoticeSettings) (language : Language) (year : Int) :
    Except NoticeFormat.Fault Edit :=
  let scan := find language lines
  if scan.notice.isSome then Except.ok (Edit.unchanged lines scan)
  else
    let preamble := Header.preambleLength lines
    (inserted settings language year (bodyOf (lines.drop preamble))).map fun tail =>
      ⟨preambleLines (lines.take preamble) ++ tail, true, none, scan.warnings⟩

/-! ### Updating -/

/-- The years of a notice, written so that they reach `year`: a range keeps all but its last four
digits, and a single year becomes a range. -/
def reachingYears (notice : Notice) (field : Text) (year : Int) : Text :=
  match notice.endYear with
  | some _ => field.take (field.length - 4) ++ ofInt year
  | none => ofInt notice.startYear ++ " - " ++ ofInt year

/-- The line of a notice with other years. -/
def replaceYears (notice : Notice) (line : Text) (year : Int) : Text :=
  line.take notice.years.start ++ reachingYears notice (notice.years.slice line) year
    ++ line.drop notice.years.stop

/-- A file whose notice reaches `year`.  A file without a notice, one whose notice reaches `year`
already and one that is no older than `year` are left as they are. -/
def update (lines : List Text) (language : Language) (firstCommitYear year : Int) : Edit :=
  let scan := find language lines
  match scan.notice with
  | none => Edit.unchanged lines scan
  | some notice =>
    if notice.lastYear ≥ year ∨ firstCommitYear ≥ year then Edit.unchanged lines scan
    else
      ⟨lines.modify notice.line fun line => replaceYears notice line year, true, some notice,
        scan.warnings⟩

end Notice

end GitHooks
