/-
**Copyright notices.**

A notice is a line of a comment or docstring at the top of a file that names a holder and one year
or a range of years.  This module holds what is known of a notice once it has been found, and the
remark made about a line that would be one if its years were in order.

Main definitions:

* `Span` — a half-open range of positions;
* `Marker` — what wraps the line of a notice;
* `Notice`, `Notice.lastYear` — a notice and the latest year it covers;
* `Malformed` — a line whose years run backwards;
* `Scan` — what a search of a header brings.
-/

import GitHooks.Text.Basic

set_option relaxedAutoImplicit false
set_option autoImplicit false

namespace GitHooks

/-! ### Positions -/

/-- The positions from `start` up to but not including `stop`. -/
structure Span where
  start : Nat
  stop : Nat
deriving DecidableEq, Repr, Inhabited

namespace Span

/-- The items of a list at the positions of a span. -/
def slice {α : Type} (span : Span) (items : List α) : List α :=
  (items.drop span.start).take (span.stop - span.start)

/-- The span of the same characters of a line, counted in bytes of UTF-8. -/
def inBytes (span : Span) (line : Text) : Span :=
  ⟨Text.byteLength (line.take span.start), Text.byteLength (line.take span.stop)⟩

/-- The span `offset` positions further on. -/
def shift (offset : Nat) (span : Span) : Span := ⟨offset + span.start, offset + span.stop⟩

end Span

/-! ### Notices -/

/-- What wraps the line of a notice. -/
inductive Marker where
  /-- A comment that runs to the end of its line. -/
  | line
  /-- A line of a comment that a marker of its own closes. -/
  | block
  /-- A line of the docstring of a module. -/
  | docstring
deriving DecidableEq, Repr, Inhabited

/-- The name a user is told for a marker. -/
def Marker.describe : Marker → Text
  | line => "comment"
  | block => "block comment"
  | docstring => "docstring"

/-- A notice found in a file. -/
structure Notice where
  /-- Who holds the copyright. -/
  holder : Text
  /-- The first year. -/
  startYear : Int
  /-- The last year of a range. -/
  endYear : Option Int
  /-- The index of the line of the notice. -/
  line : Nat
  /-- The lines of the comment or docstring it stands in. -/
  block : Span
  /-- What wraps it. -/
  marker : Marker
  /-- The characters of its line that give the years. -/
  years : Span
deriving DecidableEq, Repr, Inhabited

/-- The latest year a notice covers. -/
def Notice.lastYear (notice : Notice) : Int := notice.endYear.getD notice.startYear

/-- A line that would be a notice if its years did not run backwards. -/
structure Malformed where
  /-- The number of the line, from one. -/
  lineNumber : Nat
  startYear : Int
  endYear : Int
deriving DecidableEq, Repr, Inhabited

/-- What a user is told about a malformed notice. -/
def Malformed.message (malformed : Malformed) : Text :=
  "malformed copyright notice on line " ++ Text.ofNat malformed.lineNumber ++ ": end year "
    ++ Text.ofInt malformed.endYear ++ " is before start year " ++ Text.ofInt malformed.startYear

/-! ### What a search brings -/

/-- The first notice of a header, and the malformed ones before it. -/
structure Scan where
  notice : Option Notice
  warnings : List Malformed
deriving DecidableEq, Repr, Inhabited

/-- The first notice among the readings of lines, and the malformed ones before it. -/
def Scan.ofReadings : List (Except Malformed (Option Notice)) → Scan
  | [] => ⟨none, []⟩
  | Except.ok (some notice) :: _ => ⟨some notice, []⟩
  | Except.ok none :: rest => ofReadings rest
  | Except.error malformed :: rest =>
    let scan := ofReadings rest
    ⟨scan.notice, malformed :: scan.warnings⟩

@[simp] theorem Scan.ofReadings_nil : Scan.ofReadings [] = ⟨none, []⟩ := rfl

@[simp] theorem Scan.ofReadings_notice (notice : Notice)
    (rest : List (Except Malformed (Option Notice))) :
    Scan.ofReadings (Except.ok (some notice) :: rest) = ⟨some notice, []⟩ := rfl

@[simp] theorem Scan.ofReadings_none (rest : List (Except Malformed (Option Notice))) :
    Scan.ofReadings (Except.ok none :: rest) = Scan.ofReadings rest := rfl

@[simp] theorem Scan.ofReadings_malformed (malformed : Malformed)
    (rest : List (Except Malformed (Option Notice))) :
    Scan.ofReadings (Except.error malformed :: rest)
      = ⟨(Scan.ofReadings rest).notice, malformed :: (Scan.ofReadings rest).warnings⟩ := rfl

end GitHooks
