/-
**Finding and updating a notice, in bytes.**

A notice tells its years by their place in its line.  Counted in bytes, that place is added up from
the place of the text in the line, the signifiers in front of the years and what stands between, and
an update cuts the line there without asking again.  Here the search and the update are done that
way, and every cut and every line that is asked for is checked.  All the checks pass, and what comes
out is what comes out on characters, with the years of the notice counted in bytes.

Main definitions:

* `Notice.inBytes`, `Scan.inBytes`, `Edit.inBytes` — a result with the years of its notice in bytes;
* `InBytes.readText`, `InBytes.readLine`, `InBytes.find`, `InBytes.update` — the search and the
  update, in bytes.

Main results:

* `InBytes.statement_eq` — a text makes the same statement;
* `InBytes.find_eq` — the search finds the same notice;
* `InBytes.update_eq` — the update makes the same changes.
-/

import GitHooks.Proofs.Header.LineInBytes
import GitHooks.Proofs.Notice.Frame

set_option relaxedAutoImplicit false
set_option autoImplicit false

namespace GitHooks

open Text

/-! ### Results in bytes -/

/-- A statement with its years counted in bytes. -/
def Notice.Statement.inBytes (t : Text) (statement : Notice.Statement) : Notice.Statement :=
  { statement with years := statement.years.inBytes t }

/-- A notice of a file with its years counted in bytes. -/
def Notice.inBytes (lines : List Text) (notice : Notice) : Notice :=
  { notice with years := notice.years.inBytes (lines[notice.line]?.getD []) }

/-- What a search brings, with the years of the notice counted in bytes. -/
def Scan.inBytes (lines : List Text) (scan : Scan) : Scan :=
  { scan with notice := scan.notice.map (Notice.inBytes lines) }

/-- The outcome of an edit of a file, with the years of the notice counted in bytes. -/
def Edit.inBytes (lines : List Text) (edit : Edit) : Edit :=
  { edit with notice := edit.notice.map (Notice.inBytes lines) }

namespace InBytes

open Header (Segment)
open Notice (Statement YearField afterSignifiers? yearField? holderOf statement? statement?_eq_bind)

variable {language : Language} {lines : List Text} {comments : CommentStyle} {segment : Segment}
  {t line : Text} {index : Nat}

/-! ### Reading a line -/

/-- The statement that a year field makes, in a text behind the given number of bytes. -/
def ofField? (signifiers : Nat) (rest : Text) (field : YearField) :
    Except Misstep (Option Statement) := do
  let start := byteLength field.before
  let stop := start + byteLength field.text
  let before ← takeBytes start rest
  let after ← dropBytes stop rest
  let holder := holderOf before after
  if holder.isEmpty then return none
  else
    return some
      { holder
        startYear := digitsValue field.first
        endYear := field.second.map fun second => digitsValue second.2
        years := ⟨signifiers + start, signifiers + stop⟩ }

/-- What a comment text states, if it has the parts of a notice. -/
def statement (t : Text) : Except Misstep (Option Statement) :=
  match afterSignifiers? t with
  | none => return none
  | some behind => do
    let signifiers ← difference (byteLength t) (byteLength behind)
    let rest ← dropBytes signifiers t
    match yearField? rest with
    | none => return none
    | some field => ofField? signifiers rest field

/-- A statement as a notice, unless its years run backwards. -/
def reading (segment : Segment) (offset index : Nat) (statement : Statement) :
    Except Malformed (Option Notice) :=
  match statement.endYear with
  | some endYear =>
    if endYear < statement.startYear then
      Except.error ⟨index + 1, statement.startYear, endYear⟩
    else Except.ok (some (statement.toNotice segment offset index))
  | none => Except.ok (some (statement.toNotice segment offset index))

/-- A comment text as a notice, where the text begins `offset` bytes into its line. -/
def readText (segment : Segment) (offset index : Nat) (text : Text) :
    Except Misstep (Except Malformed (Option Notice)) := do
  match ← statement text with
  | none => return Except.ok none
  | some statement => return reading segment offset index statement

/-- A line of a segment as a notice. -/
def readLine (comments : CommentStyle) (segment : Segment) (line : Text) (index : Nat) :
    Except Misstep (Except Malformed (Option Notice)) := do
  let (offset, text) ← commentText comments segment.marker (index == segment.lines.start) line
  readText segment offset index text

/-- A year field makes the same statement. -/
theorem ofField?_eq (lead : Text) (field : YearField) :
    ofField? (byteLength lead) (field.before ++ field.text ++ field.after) field
      = Except.ok ((Statement.ofField? lead.length field).map
        (Statement.inBytes (lead ++ (field.before ++ field.text ++ field.after)))) := by
  have hbefore : takeBytes (byteLength field.before) (field.before ++ field.text ++ field.after)
      = Except.ok field.before := by
    rw [List.append_assoc, takeBytes_append]
  have hafter : dropBytes (byteLength field.before + byteLength field.text)
      (field.before ++ field.text ++ field.after) = Except.ok field.after := by
    rw [← byteLength_append, dropBytes_append]
  have hyears : (⟨lead.length + field.before.length,
        lead.length + field.before.length + field.text.length⟩ : Span).inBytes
          (lead ++ (field.before ++ field.text ++ field.after))
      = ⟨byteLength lead + byteLength field.before,
        byteLength lead + (byteLength field.before + byteLength field.text)⟩ := by
    have hspan := Span.inBytes_append (lead ++ field.before) field.text field.after
    rw [List.length_append, byteLength_append, byteLength_append, byteLength_append] at hspan
    rw [← Nat.add_assoc, ← hspan]
    simp only [List.append_assoc]
  rw [ofField?, Statement.ofField?]
  simp only [hbefore, hafter]
  change (if (holderOf field.before field.after).isEmpty then _ else _) = _
  split
  · rfl
  · rw [Option.map_some, Statement.inBytes, hyears]
    rfl

/-- **A text makes the same statement**, and its years are counted from the beginning of the
text. -/
theorem statement_eq (t : Text) :
    statement t = Except.ok ((statement? t).map (Statement.inBytes t)) := by
  rw [statement, statement?_eq_bind]
  cases hsignifiers : afterSignifiers? t with
  | none => rfl
  | some rest =>
      obtain ⟨lead, -, rfl⟩ := Notice.exists_of_afterSignifiers? hsignifiers
      have hlead : byteLength (lead ++ rest) = byteLength rest + byteLength lead := by
        rw [byteLength_append, Nat.add_comm]
      simp only [hlead, difference_add, Option.bind_some, List.length_append, Nat.add_sub_cancel]
      change (dropBytes (byteLength lead) (lead ++ rest)).bind (fun rest =>
        match yearField? rest with
        | none => Except.ok none
        | some field => ofField? (byteLength lead) rest field) = _
      rw [dropBytes_append]
      change (match yearField? rest with
        | none => Except.ok none
        | some field => ofField? (byteLength lead) rest field) = _
      cases hfield : yearField? rest with
      | none => rfl
      | some field =>
          obtain rfl := Notice.text_yearField? hfield
          exact ofField?_eq lead field

/-- A statement made in a piece of a line is a notice of the line, with the years counted from the
beginning of the line. -/
theorem toNotice_inBytes {stated : Statement} {lead tail : Text} (hst : statement? t = some stated)
    (segment : Segment) (hget : lines[index]? = some (lead ++ t ++ tail)) :
    (stated.inBytes t).toNotice segment (byteLength lead) index
      = (stated.toNotice segment lead.length index).inBytes lines := by
  obtain ⟨front, years, after, -, rfl, -, -, hspan, -⟩ := Notice.statement?_redate hst
  have hstart : stated.years.start ≤ (front ++ years ++ after).length := by
    rw [hspan]
    simp only [List.length_append]
    omega
  have hstop : stated.years.stop ≤ (front ++ years ++ after).length := by
    rw [hspan]
    simp only [List.length_append]
    omega
  rw [Notice.inBytes]
  simp only [Statement.toNotice, hget, Option.getD_some, Span.inBytes_shift hstart hstop]
  rfl

/-- A statement whose notice is counted in bytes is read as that notice. -/
theorem reading_inBytes {stated : Statement} {offset bytes : Nat}
    (h : (stated.inBytes t).toNotice segment bytes index
      = (stated.toNotice segment offset index).inBytes lines) :
    reading segment bytes index (stated.inBytes t)
      = (reading segment offset index stated).map (Option.map (Notice.inBytes lines)) := by
  rw [reading, reading, h]
  change (match stated.endYear with
    | some endYear => if endYear < stated.startYear then _ else _
    | none => _) = _
  cases stated.endYear with
  | none => rfl
  | some endYear =>
      simp only
      split
      · rfl
      · rfl

/-- **A line is read as the same notice.** -/
theorem readLine_eq (hsolid : ∀ c ∈ comments.leading, isSpace c = false)
    (hopens : (index == segment.lines.start) = true → segment.marker = Marker.block →
      startsWith (trim line) comments.leading = true)
    (hget : lines[index]? = some line) :
    readLine comments segment line index
      = Except.ok ((Notice.readLine comments segment line index).map
        (Option.map (Notice.inBytes lines))) := by
  obtain ⟨offset, text, htext⟩ : ∃ offset text,
      Header.commentText comments segment.marker (index == segment.lines.start) line
        = (offset, text) := ⟨_, _, rfl⟩
  rw [readLine, commentText_eq hsolid hopens, Notice.readLine_eq_match htext, htext]
  change (statement text).bind _ = _
  rw [statement_eq]
  cases hst : statement? text with
  | none => rfl
  | some stated =>
      have hne : text ≠ [] := by
        rintro rfl
        cases hst
      obtain ⟨lead, tail, rfl, rfl⟩ := Header.exists_of_commentText htext hne
      have hlead : (lead ++ text ++ tail).take lead.length = lead := by
        rw [List.append_assoc, List.take_left]
      rw [hlead]
      exact congrArg Except.ok (reading_inBytes (toNotice_inBytes hst segment hget))

/-! ### The search -/

/-- The readings of the lines of a segment. -/
def readSegment (comments : CommentStyle) (lines : List Text) (segment : Segment) :
    Except Misstep (List (Except Malformed (Option Notice))) :=
  (List.range' segment.lines.start (segment.lines.stop - segment.lines.start)).mapM fun index => do
    let line ← itemAt index lines
    readLine comments segment line index

/-- The notice of a file: the first in its header. -/
def find (language : Language) (lines : List Text) : Except Misstep Scan := do
  let segments ← segments language lines
  let readings ← segments.mapM (readSegment language.comments lines)
  return Scan.ofReadings readings.flatten

/-- Where each item has an answer, all have. -/
theorem mapM_eq_ok {α β : Type} {f : α → Except Misstep β} {g : α → β} {items : List α}
    (h : ∀ item ∈ items, f item = Except.ok (g item)) : items.mapM f = Except.ok (items.map g) := by
  induction items with
  | nil => rfl
  | cons item items ih =>
      rw [List.forall_mem_cons] at h
      rw [List.mapM_cons, h.1, ih h.2]
      rfl

/-- The items of a list at the positions of a span are the ones that the positions ask for. -/
theorem slice_zipIdx {span : Span} (h : span.stop ≤ lines.length) :
    span.slice lines.zipIdx = (List.range' span.start (span.stop - span.start)).map fun index =>
      (lines[index]?.getD [], index) := by
  refine List.ext_getElem? fun k => ?_
  rw [Span.slice, List.getElem?_take, List.getElem?_map, List.getElem?_drop, List.getElem?_zipIdx]
  split
  · next hk =>
    have hindex : span.start + k < lines.length := by omega
    rw [List.getElem?_range' hk, Option.map_some, Nat.one_mul, List.getElem?_eq_getElem hindex]
    simp
  · next hk =>
    rw [List.getElem?_eq_none (by simpa using hk)]
    rfl

/-- **The lines of a segment are read the same.** -/
theorem readSegment_eq (hl : language ∈ Language.all)
    (hmem : segment ∈ Header.segments language lines) :
    readSegment language.comments lines segment
      = Except.ok ((Notice.readSegment language.comments lines segment).map
        (Except.map (Option.map (Notice.inBytes lines)))) := by
  obtain ⟨-, hstop⟩ := Header.segments_bounds language lines segment hmem
  have hline : ∀ index ∈ List.range' segment.lines.start (segment.lines.stop - segment.lines.start),
      (do
        let line ← itemAt index lines
        readLine language.comments segment line index)
      = Except.ok ((Notice.readLine language.comments segment (lines[index]?.getD []) index).map
        (Option.map (Notice.inBytes lines))) := by
    intro index hindex
    obtain ⟨hstart, hlt⟩ := List.mem_range'_1.1 hindex
    have hget : lines[index]? = some lines[index] := List.getElem?_eq_getElem (by omega)
    rw [itemAt_of_getElem? hget, hget, Option.getD_some]
    refine readLine_eq (Header.plainMark_of_mem hl).solid ?_ hget
    intro hfirst hblock
    rw [beq_iff_eq] at hfirst
    subst hfirst
    exact startsWith_of_block hmem hblock hget
  rw [readSegment, mapM_eq_ok hline, Notice.readSegment, slice_zipIdx hstop, List.map_map,
    List.map_map]
  rfl

/-- The first notice among readings in bytes is the first among the readings, in bytes. -/
theorem ofReadings_map (lines : List Text) (readings : List (Except Malformed (Option Notice))) :
    Scan.ofReadings (readings.map (Except.map (Option.map (Notice.inBytes lines))))
      = (Scan.ofReadings readings).inBytes lines := by
  induction readings with
  | nil => rfl
  | cons reading readings ih =>
      cases reading with
      | error malformed =>
          rw [List.map_cons, Scan.ofReadings_malformed]
          change Scan.ofReadings (Except.error malformed :: _) = _
          rw [Scan.ofReadings_malformed, ih]
          rfl
      | ok found =>
          cases found with
          | none => exact ih
          | some notice => rfl

/-- **The search in bytes finds the same notice**, and every line that it asks for and every cut
that it makes is there. -/
theorem find_eq (hl : language ∈ Language.all) (lines : List Text) :
    find language lines = Except.ok ((Notice.find language lines).inBytes lines) := by
  have hread : ∀ segment ∈ Header.segments language lines,
      readSegment language.comments lines segment
        = Except.ok ((Notice.readSegment language.comments lines segment).map
          (Except.map (Option.map (Notice.inBytes lines)))) := fun segment hmem =>
    readSegment_eq hl hmem
  rw [find, segments_eq]
  change ((Header.segments language lines).mapM (readSegment language.comments lines)).bind _ = _
  rw [mapM_eq_ok hread, Notice.find, ← ofReadings_map, List.map_flatMap, List.flatMap_def]
  rfl

/-! ### The update -/

/-- The years of a notice, written so that they reach `year`. -/
def reachingYears (notice : Notice) (field : Text) (year : Int) : Except Misstep Text :=
  match notice.endYear with
  | some _ => do
    let stem ← difference (byteLength field) 4
    let front ← takeBytes stem field
    return front ++ ofInt year
  | none => return ofInt notice.startYear ++ " - " ++ ofInt year

/-- The line of a notice with other years. -/
def replaceYears (notice : Notice) (line : Text) (year : Int) : Except Misstep Text := do
  let field ← sliceBytes notice.years line
  let years ← reachingYears notice field year
  let front ← takeBytes notice.years.start line
  let back ← dropBytes notice.years.stop line
  return front ++ years ++ back

/-- A file whose notice reaches `year`. -/
def update (lines : List Text) (language : Language) (firstCommitYear year : Int) :
    Except Misstep Edit := do
  let scan ← find language lines
  match scan.notice with
  | none => return Edit.unchanged lines scan
  | some notice =>
    if notice.lastYear ≥ year ∨ firstCommitYear ≥ year then return Edit.unchanged lines scan
    else
      let line ← itemAt notice.line lines
      let line ← replaceYears notice line year
      return ⟨lines.set notice.line line, true, some notice, scan.warnings⟩

theorem byteLength_eq_length (h : ∀ c ∈ t, c.utf8Size = 1) : byteLength t = t.length := by
  induction t with
  | nil => rfl
  | cons c t ih =>
      rw [List.forall_mem_cons] at h
      rw [byteLength_cons, h.1, ih h.2, List.length_cons, Nat.add_comm]

/-- A year takes four bytes. -/
theorem byteLength_of_isYear {year : Text} (h : Notice.IsYear year) : byteLength year = 4 := by
  rw [byteLength_eq_length ?_, h.1]
  intro c hc
  obtain ⟨-, hle⟩ := isDigit_iff.1 (List.all_eq_true.1 h.2 c hc)
  rw [Char.utf8Size_eq_one_iff, UInt32.le_iff_toNat_le]
  exact Nat.le_trans hle (by decide)

/-- The years that an update writes are cut out of the field in front of its last year. -/
theorem reachingYears_eq {notice : Notice} {years : Text} (hyears : notice.YearsAre years)
    (year : Int) :
    reachingYears notice years year = Except.ok (Notice.reachingYears notice years year) := by
  rw [reachingYears, Notice.reachingYears]
  rw [Notice.YearsAre] at hyears
  cases he : notice.endYear with
  | none => rfl
  | some endYear =>
      rw [he] at hyears
      obtain ⟨stem, last, rfl, hlast⟩ := hyears
      have hbytes : byteLength (stem ++ last) = 4 + byteLength stem := by
        rw [byteLength_append, byteLength_of_isYear hlast, Nat.add_comm]
      have hlength : (stem ++ last).length - 4 = stem.length := by
        rw [List.length_append, hlast.1, Nat.add_sub_cancel]
      simp only [hbytes, hlength, difference_add, List.take_left]
      change (takeBytes (byteLength stem) (stem ++ last)).bind _ = _
      rw [takeBytes_append]
      rfl

/-- **The line of a notice is cut around its years**, and what is written in their place is the
same. -/
theorem replaceYears_eq {notice : Notice} {front years after : Text}
    (hget : lines[notice.line]? = some (front ++ years ++ after))
    (hspan : notice.years = ⟨front.length, front.length + years.length⟩)
    (hyears : notice.YearsAre years) (year : Int) :
    replaceYears (notice.inBytes lines) (front ++ years ++ after) year
      = Except.ok (Notice.replaceYears notice (front ++ years ++ after) year) := by
  have hbytes : (notice.inBytes lines).years = ⟨byteLength front, byteLength (front ++ years)⟩ := by
    rw [Notice.inBytes]
    simp only [hget, Option.getD_some, hspan, Span.inBytes_append]
  have hreaching : reachingYears (notice.inBytes lines) years year
      = Except.ok (Notice.reachingYears notice years year) := reachingYears_eq hyears year
  have hfront : takeBytes (byteLength front) (front ++ years ++ after) = Except.ok front := by
    rw [List.append_assoc, takeBytes_append]
  have hline : Notice.replaceYears notice (front ++ years ++ after) year
      = front ++ Notice.reachingYears notice years year ++ after := by
    rw [Notice.replaceYears, hspan, Span.slice_append, ← List.length_append, List.drop_left,
      List.append_assoc front years, List.take_left]
  rw [replaceYears, hbytes, hline, sliceBytes_append]
  change (reachingYears (notice.inBytes lines) years year).bind _ = _
  rw [hreaching]
  change (takeBytes (byteLength front) (front ++ years ++ after)).bind _ = _
  rw [hfront]
  change (dropBytes (byteLength (front ++ years)) (front ++ years ++ after)).bind _ = _
  rw [dropBytes_append]
  rfl

/-- **The update in bytes makes the same changes**, and every line that it asks for and every cut
that it makes is there. -/
theorem update_eq (hl : language ∈ Language.all) (lines : List Text) (firstCommitYear year : Int) :
    update lines language firstCommitYear year
      = Except.ok ((Notice.update lines language firstCommitYear year).inBytes lines) := by
  rw [update, find_eq hl]
  obtain ⟨⟨found, warnings⟩, hscan⟩ : ∃ scan, Notice.find language lines = scan := ⟨_, rfl⟩
  cases found with
  | none =>
      rw [Notice.update, hscan]
      rfl
  | some notice =>
      by_cases hcur : notice.lastYear ≥ year ∨ firstCommitYear ≥ year
      · rw [Notice.update_of_current hscan hcur, hscan]
        exact if_pos hcur
      · obtain ⟨front, years, after, hget, hspan, hyears⟩ := Notice.yearsAre_of_find hscan
        have hset : lines.modify notice.line (fun line => Notice.replaceYears notice line year)
            = lines.set notice.line
              (Notice.replaceYears notice (front ++ years ++ after) year) := by
          rw [List.modify_eq_set, hget, Option.getD_some]
        rw [Notice.update_of_older hscan hcur, hscan, hset]
        refine (if_neg hcur).trans ?_
        change (itemAt notice.line lines).bind _ = _
        rw [itemAt_of_getElem? hget]
        change (replaceYears (notice.inBytes lines) (front ++ years ++ after) year).bind _ = _
        rw [replaceYears_eq hget hspan hyears]
        rfl

end InBytes

end GitHooks
