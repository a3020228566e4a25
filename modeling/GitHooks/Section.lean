/-
**Sections of sorted lines.**

A section is a run of lines that are not blank.  The comment lines it begins with are its header
and stay where they are; the other lines are its body and are sorted by what they say, without
indentation and comment markers, in the order of code points.  Lines that say the same keep their
order, or all but the first of them are dropped.

Main definitions:

* `Section` — a header and a body;
* `Section.Reading`, `Section.split` — lines read one by one, and the sections of a list of lines;
* `Section.key` — what orders a line;
* `Section.sortBody`, `Section.dropRepeats` — a body sorted, and without repeated keys;
* `Section.SortRemark` — what is remarked on when repeats are dropped;
* `Section.join` — sections as lines again;
* `sortSections` — a file sorted section by section.
-/

import GitHooks.Text.Space

set_option relaxedAutoImplicit false
set_option autoImplicit false

namespace GitHooks

open Text

/-- A run of lines that are not blank. -/
structure Section where
  /-- The comment lines it begins with. -/
  header : List Text
  body : List Text
deriving DecidableEq, Repr, Inhabited

namespace Section

/-! ### Sections of a list of lines -/

/-- Whether a line is a comment. -/
def isComment (marker line : Text) : Bool := startsWith (trimStart line) marker

/-- The lines of a section, in order. -/
def lines (part : Section) : List Text := part.header ++ part.body

/-- The part of a file that the line read last belongs to. -/
inductive Place where
  | beforeSection
  | inHeader
  | inBody
deriving DecidableEq, Repr, Inhabited

/-- Where a reading of lines stands. -/
structure Reading where
  place : Place
  /-- What has been read of the section that is not ended yet. -/
  current : Section
deriving DecidableEq, Repr, Inhabited

namespace Reading

/-- No line of a section has been read. -/
def start : Reading := ⟨.beforeSection, ⟨[], []⟩⟩

/-- The section that has been read, if there is a line in it. -/
def finish (reading : Reading) : List Section :=
  if reading.current.header.isEmpty && reading.current.body.isEmpty then [] else [reading.current]

/-- Reads a line that is not blank. -/
def push (marker : Text) (reading : Reading) (line : Text) : Reading :=
  match reading.place, isComment marker line with
  | .beforeSection, true | .inHeader, true =>
    ⟨.inHeader, { reading.current with header := reading.current.header ++ [line] }⟩
  | _, _ => ⟨.inBody, { reading.current with body := reading.current.body ++ [line] }⟩

/-- The sections that are ended by the lines that follow, or by their end. -/
def sections (marker : Text) (reading : Reading) : List Text → List Section
  | [] => reading.finish
  | line :: rest =>
    if isBlank line then reading.finish ++ sections marker start rest
    else sections marker (reading.push marker line) rest

end Reading

/-- The sections of a list of lines. -/
def split (marker : Text) (lines : List Text) : List Section := Reading.start.sections marker lines

/-! ### Sorting a section -/

/-- What a line is ordered by: its text without indentation and the characters of the marker. -/
def key (marker line : Text) : Text :=
  trimStart ((trimStart line).dropWhile marker.contains)

/-- A body in the order of its keys; lines with equal keys keep their order. -/
def sortBody (marker : Text) (body : List Text) : List Text :=
  body.mergeSort fun a b => isOrdered (key marker a) (key marker b)

/-- What is remarked on when repeated keys are dropped. -/
inductive SortRemark where
  /-- A line was dropped that is written differently from the one kept. -/
  | dropped (line kept : Text)
  /-- A key is found in several sections. -/
  | shared (key : Text)
deriving DecidableEq, Repr, Inhabited

/-- What a user is told by a remark. -/
def SortRemark.message : SortRemark → Text
  | dropped line kept => "'" ++ trim line ++ "' dropped as a duplicate of '" ++ trim kept ++ "'"
  | shared key => "'" ++ key ++ "' appears in more than one section"

/-- The lines behind `kept` in a sorted body without those that repeat a key, and the remarks on
the lines dropped. -/
def dropRepeatsOf (marker kept : Text) : List Text → List Text × List SortRemark
  | [] => ([], [])
  | line :: rest =>
    if key marker kept = key marker line then
      let (lines, remarks) := dropRepeatsOf marker kept rest
      (lines, if trim kept = trim line then remarks else .dropped line kept :: remarks)
    else
      let (lines, remarks) := dropRepeatsOf marker line rest
      (line :: lines, remarks)

/-- A sorted body with the first line of each key, and the remarks on the lines dropped. -/
def dropRepeats (marker : Text) : List Text → List Text × List SortRemark
  | [] => ([], [])
  | line :: rest =>
    let (lines, remarks) := dropRepeatsOf marker line rest
    (line :: lines, remarks)

/-- A section with its body sorted, and without repeats when `unique` asks for that. -/
def sorted (marker : Text) (unique : Bool) (part : Section) : Section × List SortRemark :=
  let body := sortBody marker part.body
  if unique then
    let (kept, remarks) := dropRepeats marker body
    (⟨part.header, kept⟩, remarks)
  else (⟨part.header, body⟩, [])

/-! ### Keys shared by sections -/

/-- The keys of the bodies of some sections, in ascending order. -/
def sortedKeys (marker : Text) (parts : List Section) : List Text :=
  (parts.flatMap fun part => part.body.map (key marker)).mergeSort isOrdered

/-- The items of a list that are met more than once, where equal items stand together. -/
def repeated : List Text → List Text
  | [] => []
  | item :: rest =>
    if rest.head? = some item ∧ (repeated rest).head? ≠ some item then item :: repeated rest
    else repeated rest

/-- The keys found in the bodies of several sections, in ascending order. -/
def sharedKeys (marker : Text) (parts : List Section) : List Text :=
  repeated (sortedKeys marker parts)

/-! ### Lines again -/

/-- Sections as lines, with one empty line between neighbours. -/
def join : List Section → List Text
  | [] => []
  | [part] => part.lines
  | part :: next :: rest => part.lines ++ [] :: join (next :: rest)

end Section

/-- A sorted file. -/
structure Sorted where
  lines : List Text
  changed : Bool
  remarks : List Section.SortRemark
deriving DecidableEq, Repr, Inhabited

/-- The lines of a file with the body of each section sorted. -/
def sortSections (lines : List Text) (unique : Bool) (marker : Text) : Sorted :=
  let parts := (Section.split marker lines).map (Section.sorted marker unique)
  let shared := if unique then Section.sharedKeys marker (parts.map (·.1)) else []
  let out := Section.join (parts.map (·.1))
  ⟨out, out ≠ lines, parts.flatMap (·.2) ++ shared.map .shared⟩

end GitHooks
