/-
**A notice that is found is well formed.**

A notice that a search brings stands in its file: its line is a line of the file and of the comment
or docstring that it names, and that is a run of lines of the file.  Its years are a piece of its
line, four digits or two times four with a hyphen between, and the years it tells are their values,
in order.  Its holder is a name, with neither a comma nor white space at its ends.

The search and the update count in bytes, and they cut lines at what they have counted.  That they
can is part of what is proved: no cut is outside of a line or within a character.

Main definitions:

* `Notice.StatesYears` — the characters of the years of a notice, and their values;
* `Notice.WellFormed` — a notice of a file, with its years counted in bytes.

Main results:

* `Notice.exists_of_statement?` — the parts of a text that makes a statement;
* `Notice.find_safe` — every cut of the search and of the update is possible, and a notice that is
  found is well formed.
-/

import GitHooks.Proofs.Notice.InBytes
import GitHooks.Proofs.Text.Core

set_option relaxedAutoImplicit false
set_option autoImplicit false

namespace GitHooks

namespace Notice

open Text
open Header (exists_of_commentText)

variable {language : Language} {lines : List Text} {comments : CommentStyle}
  {segment : Header.Segment} {t line years : Text} {index : Nat} {statement : Statement}
  {notice : Notice}

/-! ### The years -/

/-- The characters of the years of a notice are four digits, or four digits, a hyphen and four
digits with white space between, and the years have the values of the digits. -/
def StatesYears (notice : Notice) (years : Text) : Prop :=
  match notice.endYear with
  | none => IsYear years ∧ notice.startYear = digitsValue years
  | some endYear => ∃ first separator last, years = first ++ separator ++ last ∧ IsYear first
      ∧ IsSeparator separator ∧ IsYear last ∧ notice.startYear = digitsValue first
      ∧ endYear = digitsValue last

/-- A notice of a file, with its years counted in bytes, has all its parts in the file and in
order. -/
structure WellFormed (lines : List Text) (notice : Notice) : Prop where
  line_lt : notice.line < lines.length
  mem_block : notice.block.start ≤ notice.line ∧ notice.line < notice.block.stop
  block_le : notice.block.stop ≤ lines.length
  /-- The years are a piece of the line. -/
  years : notice.years.start < notice.years.stop ∧ ∃ line years, lines[notice.line]? = some line
    ∧ sliceBytes notice.years line = Except.ok years ∧ StatesYears notice years
  in_order : ∀ endYear ∈ notice.endYear, notice.startYear ≤ endYear
  /-- There is a holder. -/
  held : notice.holder ≠ []
  /-- The name of the holder has no comma and no white space in front. -/
  begins : ∀ c ∈ notice.holder.head?, c ≠ ',' ∧ isSpace c = false
  /-- The name of the holder has no comma and no white space at its end. -/
  ends : ∀ c ∈ notice.holder.getLast?, c ≠ ',' ∧ isSpace c = false

theorem StatesYears.ne_nil (h : StatesYears notice years) : years ≠ [] := by
  rintro rfl
  rw [StatesYears] at h
  cases he : notice.endYear with
  | none =>
      rw [he] at h
      exact absurd h.1.1 (by decide)
  | some endYear =>
      rw [he] at h
      obtain ⟨first, separator, last, hnil, hfirst, -⟩ := h
      obtain ⟨hnil, -⟩ := List.append_eq_nil_iff.1 hnil.symm
      rw [(List.append_eq_nil_iff.1 hnil).1] at hfirst
      exact absurd hfirst.1 (by decide)

/-! ### What a line states -/

/-- The second year of a range stands behind a separator. -/
theorem second_around {before first behind separator digits : Text}
    (h : (YearField.around before first behind).second = some (separator, digits)) :
    IsSeparator separator ∧ IsYear digits := by
  rw [YearField.around] at h
  split at h
  · next hrange =>
    obtain ⟨rfl, rfl⟩ := Prod.mk.inj (Option.some.inj h)
    obtain ⟨-, hseparator, hdigits, -⟩ := rangeAt?_eq_some_iff.1 hrange
    exact ⟨hseparator, hdigits⟩
  · cases h

theorem isHolderEdge_eq_false_iff {c : Char} :
    isHolderEdge c = false ↔ c ≠ ',' ∧ isSpace c = false := by
  rw [isHolderEdge, Bool.or_eq_false_iff, beq_eq_false_iff_ne]

/-- The characters of a year field are the years of what it states. -/
theorem statesYears_of_field {field : YearField} {holder : Text} {span : Span}
    (hfirst : IsYear field.first)
    (hsecond : ∀ separator digits, field.second = some (separator, digits) →
      IsSeparator separator ∧ IsYear digits)
    (segment : Header.Segment) (offset index : Nat) :
    StatesYears (Statement.toNotice ⟨holder, digitsValue field.first,
      field.second.map fun second => digitsValue second.2, span⟩ segment offset index)
      field.text := by
  rw [StatesYears, Statement.toNotice, YearField.text]
  cases he : field.second with
  | none =>
      rw [List.append_nil]
      exact ⟨hfirst, rfl⟩
  | some second =>
      obtain ⟨separator, digits⟩ := second
      obtain ⟨hseparator, hdigits⟩ := hsecond separator digits he
      exact ⟨field.first, separator, digits, (List.append_assoc _ _ _).symm, hfirst, hseparator,
        hdigits, rfl, rfl⟩

/-- The name of a holder has no comma and no white space at its ends. -/
theorem holderOf_edges (before after : Text) :
    (∀ c ∈ (holderOf before after).head?, c ≠ ',' ∧ isSpace c = false)
      ∧ ∀ c ∈ (holderOf before after).getLast?, c ≠ ',' ∧ isSpace c = false := by
  constructor
  · intro c hc
    exact isHolderEdge_eq_false_iff.1 (of_mem_head?_stripBoth hc)
  · intro c hc
    exact isHolderEdge_eq_false_iff.1 (of_mem_getLast?_stripBoth hc)

/-- **The parts of a text that makes a statement**: the years with their values, and the holder. -/
theorem exists_of_statement? (h : statement? t = some statement) :
    ∃ front years after, t = front ++ years ++ after ∧ front ≠ []
      ∧ statement.years = ⟨front.length, front.length + years.length⟩
      ∧ (∀ segment offset index, StatesYears (statement.toNotice segment offset index) years)
      ∧ statement.holder ≠ [] ∧ ∃ before after, statement.holder = holderOf before after := by
  rw [statement?_eq_bind] at h
  obtain ⟨rest, hsignifiers, hrest⟩ := Option.bind_eq_some_iff.1 h
  obtain ⟨field, hfield, hst⟩ := Option.bind_eq_some_iff.1 hrest
  obtain ⟨lead, hlead, rfl⟩ := exists_of_afterSignifiers? hsignifiers
  obtain ⟨behind, -, hyear, -, haround, -⟩ := yearFieldFrom?_replace hfield
  have hsecond : ∀ separator digits, field.second = some (separator, digits) →
      IsSeparator separator ∧ IsYear digits := by
    intro separator digits hdigits
    rw [haround] at hdigits
    exact second_around hdigits
  rw [Statement.ofField?] at hst
  split at hst
  · cases hst
  · next hholder =>
    obtain rfl := Option.some.inj hst
    refine ⟨lead ++ field.before, field.text, field.after, ?_, ?_, ?_,
      statesYears_of_field hyear hsecond, ?_, field.before, field.after, rfl⟩
    · rw [List.append_assoc, List.append_assoc, ← List.append_assoc field.before,
        text_yearField? hfield]
    · exact List.append_ne_nil_of_left_ne_nil hlead _
    · simp only [List.length_append, Nat.add_sub_cancel]
    · exact fun hnil => hholder (List.isEmpty_iff.2 hnil)

/-- The parts of a line that is read as a notice. -/
theorem exists_of_readLine (h : readLine comments segment line index = Except.ok (some notice)) :
    notice.line = index ∧ notice.block = segment.lines
      ∧ (∃ front years after, line = front ++ years ++ after
        ∧ notice.years = ⟨front.length, front.length + years.length⟩ ∧ StatesYears notice years)
      ∧ (∀ endYear ∈ notice.endYear, notice.startYear ≤ endYear)
      ∧ notice.holder ≠ [] ∧ ∃ before after, notice.holder = holderOf before after := by
  have hle := startYear_le_lastYear h
  obtain ⟨offset, text, statement, htext, hst, -, rfl⟩ := readLine_eq_some_iff.1 h
  obtain ⟨front, years, after, rfl, hfront, hspan, hyears, hheld, hholder⟩ :=
    exists_of_statement? hst
  obtain ⟨lead, tail, rfl, rfl⟩ := exists_of_commentText htext (by simp [hfront])
  refine ⟨rfl, rfl, ⟨lead ++ front, years, after ++ tail, by simp, ?_, hyears _ _ _⟩, ?_, hheld,
    hholder⟩
  · rw [Statement.toNotice, hspan, Span.shift]
    simp [Nat.add_assoc]
  · intro endYear hend
    rw [Notice.lastYear, Option.mem_def.1 hend] at hle
    exact hle

/-- **A notice that is found is well formed.** -/
theorem wellFormed_of_find (h : (find language lines).notice = some notice) :
    (notice.inBytes lines).WellFormed lines := by
  have hfind : find language lines = ⟨some notice, (find language lines).warnings⟩ := by rw [← h]
  obtain ⟨front, visit, back, hvisits, hread, -⟩ := find_eq_some_iff.1 hfind
  have hvisit : visit ∈ Header.visits language lines := by
    rw [hvisits]
    exact List.mem_append_right _ List.mem_cons_self
  obtain ⟨hsegment, hstart, hstop, hget⟩ := Header.mem_visits_iff.1 hvisit
  obtain ⟨-, hle⟩ := Header.segments_bounds language lines _ hsegment
  obtain ⟨hline, hblock, ⟨before, years, after, hparts, hspan, hyears⟩, horder, hheld, hholder⟩ :=
    exists_of_readLine hread
  obtain ⟨left, right, hholder⟩ := hholder
  obtain ⟨hhead, hlast⟩ := holderOf_edges left right
  rw [← hholder] at hhead hlast
  rw [← hline, hparts] at hget
  have hbytes : (notice.inBytes lines).years
      = ⟨byteLength before, byteLength (before ++ years)⟩ := by
    rw [Notice.inBytes]
    simp only [hget, Option.getD_some, hspan, Span.inBytes_append]
  have hpos : 0 < byteLength years := byteLength_pos hyears.ne_nil
  refine ⟨?_, ?_, ?_, ⟨?_, _, years, hget, ?_, hyears⟩, horder, hheld, hhead, hlast⟩
  · exact (List.getElem?_eq_some_iff.1 hget).1
  · change notice.block.start ≤ notice.line ∧ notice.line < notice.block.stop
    rw [hline, hblock]
    exact ⟨hstart, hstop⟩
  · change notice.block.stop ≤ lines.length
    rw [hblock]
    exact hle
  · rw [hbytes]
    change byteLength before < byteLength (before ++ years)
    rw [byteLength_append]
    exact Nat.lt_add_of_pos_right hpos
  · rw [hbytes, sliceBytes_append]

/-- **The search and the update are safe.**  Done in bytes on any lines, they find what they ask for
and cut between characters, and they bring what they bring on characters.  A notice that the search
brings is well formed. -/
theorem find_safe (hl : language ∈ Language.all) (lines : List Text) (firstCommitYear year : Int) :
    ∃ scan edit, InBytes.find language lines = Except.ok scan
      ∧ scan = (find language lines).inBytes lines
      ∧ (∀ notice, scan.notice = some notice → notice.WellFormed lines)
      ∧ InBytes.update lines language firstCommitYear year = Except.ok edit
      ∧ edit = (update lines language firstCommitYear year).inBytes lines := by
  refine ⟨_, _, InBytes.find_eq hl lines, rfl, ?_, InBytes.update_eq hl lines _ _, rfl⟩
  intro notice hnotice
  obtain ⟨found, hfound, rfl⟩ := Option.map_eq_some_iff.1 hnotice
  exact wellFormed_of_find hfound

/-- An opening marker that looks closed, a line of wide white space, and years behind a sign of two
bytes with a wide space between them. -/
theorem find_safe_wide :
    let c : Language := Language.plain "c" ["c", "h"] CommentStyle.stars
    let lines : List Text := ["/*/ é", "\u2003", " * © 2019\u00a0- 2021, Ädä */"]
    let notice : Notice := ⟨"Ädä", 2019, some 2021, 2, ⟨0, 3⟩, Marker.block, ⟨6, 18⟩⟩
    c ∈ Language.all ∧ InBytes.find c lines = Except.ok ⟨some notice, []⟩ ∧ notice.WellFormed lines
      ∧ InBytes.update lines c 2018 2024
        = Except.ok
          ⟨["/*/ é", "\u2003", " * © 2019\u00a0- 2024, Ädä */"], true, some notice, []⟩ := by
  intro c lines notice
  have hl : c ∈ Language.all := by decide
  obtain ⟨scan, edit, hfind, hscan, hwell, hupdate, hedit⟩ := find_safe hl lines 2018 2024
  have hfound : (find c lines).inBytes lines = ⟨some notice, []⟩ := by decide +kernel
  have hupdated : (update lines c 2018 2024).inBytes lines
      = ⟨["/*/ é", "\u2003", " * © 2019\u00a0- 2024, Ädä */"], true, some notice, []⟩ := by
    decide +kernel
  rw [hfound] at hscan
  rw [hupdated] at hedit
  exact ⟨hl, hscan ▸ hfind, hwell notice (by rw [hscan]), hedit ▸ hupdate⟩

end Notice

end GitHooks
