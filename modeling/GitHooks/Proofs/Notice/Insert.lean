/-
**An added notice is found again.**

What is added to a file is put behind its preamble, in comment markers or in the docstring that
the body of the file begins with.  In the standard format its first line opens a segment and is
read as the wording, so the notice is the first thing that the search finds.

Main definitions:

* `Notice.seeds` — the smallest bodies that a notice is put in front of in different ways;
* `Notice.noticeLines`, `Notice.ahead` — the lines of a notice, and a body with them;
* `Notice.Casing` — what stands around the wording of a notice in its line.

Main results:

* `Notice.docstringLines_eq_append` — a notice in a docstring begins as it does in front of one of
  the smallest bodies;
* `Notice.exists_casing` — the casing of a notice does not depend on its years;
* `Notice.inserted_standard` — the lines that are added in the standard format;
* `Notice.find_add` — what is added to a file is found in it.
-/

import GitHooks.Proofs.Notice.Opening

set_option relaxedAutoImplicit false
set_option autoImplicit false

namespace GitHooks

namespace Notice

open Text
open Header

variable {language : Language} {lines : List Text} {mark name years : Text}

/-! ### In comment markers -/

theorem withLeading_wording (hl : language ∈ Language.all) (hN : PlainName name) (years : Text) :
    withLeading language.comments.leading (wording years name)
      = language.comments.leading ++ ' ' :: wording years name := by
  -- no marker begins as the wording does, so the wording is not taken to be marked already
  have hall : ∀ language ∈ Language.all, language.comments.leading.head? ≠ some 'C' := by decide
  have hstarts : startsWith (trimStart (wording years name)) language.comments.leading = false := by
    rw [startsWith_eq_false_iff]
    intro hp
    obtain ⟨c, rest, hc, -⟩ := (plainMark_of_mem hl).exists_cons
    rw [hc] at hp
    obtain rfl := (List.cons_prefix_cons.1 hp).1
    exact hall language hl (by rw [hc]; rfl)
  have htight : EndsTight (language.comments.leading ++ ' ' :: wording years name) :=
    ((hN.endsTight_wording years).append [' ']).append language.comments.leading
  rw [withLeading, hstarts, if_neg Bool.false_ne_true, List.append_assoc]
  exact htight.trimEnd

theorem wrapLine_wording_line (hl : language ∈ Language.all)
    (hc : language.comments = CommentStyle.line mark) (hN : PlainName name) (years : Text) :
    wrapLine language.comments (wording years name) = mark ++ ' ' :: wording years name := by
  rw [wrapLine, withLeading_wording hl hN, hc]
  rfl

theorem wrapLine_wording_block (hl : language ∈ Language.all) {closing : Text}
    (hc : language.comments = CommentStyle.block mark closing) (hN : PlainName name)
    (hy : IsYears years) : wrapLine language.comments (wording years name)
      = mark ++ ' ' :: (wording years name ++ ' ' :: closing) := by
  obtain ⟨-, hspace, hn⟩ := closing_wording hl hc hN hy
  have hends : endsWith (mark ++ ' ' :: wording years name) closing = false := by
    rw [endsWith_eq_false_iff, suffix_append_cons_iff hspace]
    exact fun h => occursIn_eq_false_iff.1 hn h.isInfix
  rw [wrapLine, withLeading_wording hl hN, hc, CommentStyle.leading_block,
    CommentStyle.trailing?_block, withTrailing, hends]
  simp

/-! ### In a docstring -/

/-- The smallest bodies that a notice is put in front of in different ways: none, and an opened
docstring in either quote. -/
def seeds : List (List Text) := [] :: docstringQuotes.map fun quote => [quote]

theorem docstringLines_nil (notice : List Text) :
    docstringLines notice [] = Text.lines ("\"\"\"" ++ joinWith "\n" notice ++ "\"\"\"") :=
  List.append_nil _

theorem docstringLines_quote {quote : Text} (hq : quote ∈ docstringQuotes) (notice : List Text) :
    docstringLines notice [quote] = Text.lines (quote ++ joinWith "\n" notice) ++ [[]] := by
  simp only [docstringQuotes, List.mem_cons, List.not_mem_nil, or_false] at hq
  rcases hq with rfl | rfl
  · exact (List.append_nil _).trans (List.append_nil _)
  · exact (List.append_nil _).trans (List.append_nil _)

/-- A notice in a docstring begins as it does in front of one of the smallest bodies. -/
theorem docstringLines_eq_append (body : List Text) :
    ∃ seed ∈ seeds, ∃ more,
      ∀ notice, docstringLines notice body = docstringLines notice seed ++ more := by
  cases body with
  | nil => exact ⟨[], List.mem_cons_self .., [], fun notice => (List.append_nil _).symm⟩
  | cons first rest =>
      cases hq : docstringQuote? first with
      | none =>
          refine ⟨[], List.mem_cons_self .., separated (first :: rest), fun notice => ?_⟩
          rw [docstringLines_nil]
          simp only [docstringLines, hq]
      | some quote =>
          have hmem : quote ∈ docstringQuotes := List.mem_of_find?_eq_some hq
          let remainder := (trimStart first).drop quote.length
          refine ⟨[quote], List.mem_cons_of_mem _ (List.mem_map_of_mem hmem),
            (if isBlank remainder then [] else [remainder]) ++ rest, fun notice => ?_⟩
          rw [docstringLines_quote hmem]
          simp only [docstringLines, hq, List.append_assoc]
          rfl

/-- The docstring that is opened or made begins with a quote and the wording of the notice; the
rest of it does not depend on the years. -/
theorem docstringLines_wording (hN : PlainName name) (body : List Text) :
    ∃ quote ∈ docstringQuotes, ∃ back more, (back = [] ∨ back = "\"\"\"")
      ∧ ∀ years, PlainYears years → docstringLines [wording years name] body
        = (quote ++ (wording years name ++ back)) :: more := by
  have hline : ∀ quote ∈ docstringQuotes, ∀ back : Text, (back = [] ∨ back = "\"\"\"") →
      ∀ years, PlainYears years → Text.lines (quote ++ (wording years name ++ back))
        = [quote ++ (wording years name ++ back)] := by
    intro quote hq back hb years hy
    have hquote : ∀ quote ∈ docstringQuotes, '\n' ∉ quote ∧ quote ≠ [] := by decide
    refine lines_of_not_mem ?_ (by simp [(hquote quote hq).2])
    rw [List.mem_append, List.mem_append, not_or, not_or]
    refine ⟨(hquote quote hq).1, not_mem_wording hN hy.oneLine, ?_⟩
    rcases hb with rfl | rfl <;> decide
  obtain ⟨seed, hs, more, hmore⟩ := docstringLines_eq_append body
  rw [seeds, List.mem_cons, List.mem_map] at hs
  rcases hs with rfl | ⟨quote, hq, rfl⟩
  · have hq : "\"\"\"".toList ∈ docstringQuotes := List.mem_cons_self ..
    refine ⟨_, hq, _, more, Or.inr rfl, fun years hy => ?_⟩
    rw [hmore, docstringLines_nil, joinWith_singleton, List.append_assoc,
      hline _ hq _ (Or.inr rfl) years hy]
    rfl
  · refine ⟨quote, hq, [], [] :: more, Or.inl rfl, fun years hy => ?_⟩
    have := hline quote hq [] (Or.inl rfl) years hy
    rw [List.append_nil] at this
    rw [hmore, docstringLines_quote hq, joinWith_singleton, this, List.append_nil]
    rfl

/-! ### In either -/

/-- The lines of a notice as they are put into a file: in a docstring without markers, else in
those of a comment. -/
def noticeLines (settings : NoticeSettings) (language : Language) (startYear : Int)
    (endYear : Option Int) : Except NoticeFormat.Fault (List Text) :=
  if settings.docstring && language.docstrings then
    plainLines settings.name startYear endYear settings.format
  else commentLines settings.name startYear endYear settings.format language.comments

/-- The lines of a notice with a body behind them, or in the docstring that the body begins
with. -/
def ahead (settings : NoticeSettings) (language : Language) (body notice : List Text) :
    List Text :=
  if settings.docstring && language.docstrings then docstringLines notice body
  else notice ++ separated body

theorem inserted_eq_map (settings : NoticeSettings) (language : Language) (year : Int)
    (body : List Text) : inserted settings language year body
      = (noticeLines settings language year none).map (ahead settings language body) := by
  rw [inserted, noticeLines]
  unfold ahead
  split <;> rfl

/-- What stands around the wording of a notice in the first of the lines that are put into a file,
whatever its years: with it the line opens a segment, and is read there as the wording between
white space. -/
structure Casing (language : Language) (name left right : Text) (marker : Marker) (offset : Nat)
    (front back : Text) : Prop where
  blank_front : isBlank front = true
  blank_back : isBlank back = true
  length_left : left.length = offset + front.length
  opens : ∀ years, IsYears years → OpensWith language (left ++ wording years name ++ right) marker
    offset (front ++ wording years name ++ back)

/-- **The lines of a notice in the standard format** are the wording in a casing that does not
depend on the years, and what stands behind it does not either. -/
theorem exists_casing (hl : language ∈ Language.all) (hN : PlainName name) (docstring : Bool)
    (body : List Text) :
    ∃ left right marker offset front back more,
      Casing language name left right marker offset front back
        ∧ ∀ startYear endYear, PlainYears (yearsText startYear endYear) →
          ∃ line, noticeLines ⟨name, NoticeFormat.standard, docstring⟩ language startYear endYear
              = Except.ok [line]
            ∧ ahead ⟨name, NoticeFormat.standard, docstring⟩ language body [line]
              = (left ++ wording (yearsText startYear endYear) name ++ right) :: more := by
  cases hd : docstring && language.docstrings with
  | true =>
      obtain ⟨quote, hq, back, more, hb, hlines⟩ := docstringLines_wording hN body
      refine ⟨quote, back, Marker.docstring, quote.length, [], [], more,
        ⟨rfl, rfl, rfl, fun years hy => ?_⟩,
        fun startYear endYear hy => ⟨wording (yearsText startYear endYear) name, ?_, ?_⟩⟩
      · rw [Bool.and_eq_true] at hd
        simpa using opensWith_docstring hl hd.2 hN hy hq hb
      · rw [noticeLines, if_pos hd]
        exact plainLines_standard hN hy
      · rw [ahead, if_pos hd, hlines _ hy, List.append_assoc]
  | false =>
      have hplain : ∀ startYear endYear, PlainYears (yearsText startYear endYear) →
          noticeLines ⟨name, NoticeFormat.standard, docstring⟩ language startYear endYear
            = Except.ok [wrapLine language.comments
                (wording (yearsText startYear endYear) name)] := by
        intro startYear endYear hy
        rw [noticeLines, if_neg (by simp [hd]), commentLines, plainLines_standard hN hy]
        rfl
      have hahead : ∀ line, ahead ⟨name, NoticeFormat.standard, docstring⟩ language body [line]
          = line :: separated body := fun line => by
        rw [ahead, if_neg (by simp [hd])]
        rfl
      cases hc : language.comments with
      | line mark =>
          refine ⟨mark ++ [' '], [], Marker.line, mark.length, [' '], [], separated body,
            ⟨rfl, rfl, by simp, fun years hy => ?_⟩,
            fun startYear endYear hy => ⟨_, hplain startYear endYear hy, ?_⟩⟩
          · simpa using opensWith_line hl hc hN hy
          · rw [hahead, wrapLine_wording_line hl hc hN]
            simp
      | block opening closing =>
          refine ⟨opening ++ [' '], ' ' :: closing, Marker.block, opening.length, [' '], [' '],
            separated body,
            ⟨rfl, rfl, by simp, fun years hy => ?_⟩,
            fun startYear endYear hy => ⟨_, hplain startYear endYear hy, ?_⟩⟩
          · simpa using opensWith_block hl hc hN hy
          · rw [hahead, wrapLine_wording_block hl hc hN hy.isYears]
            simp

/-! ### In a file -/

/-- The lines that are added in the standard format, with the body behind them: the first of them
opens a segment and is read as the wording of the notice. -/
theorem inserted_standard (hl : language ∈ Language.all) (hN : PlainName name) (docstring : Bool)
    {year : Int} (h₁ : 1000 ≤ year) (h₂ : year ≤ 9999) (body : List Text) :
    ∃ head more marker offset front back,
      inserted ⟨name, NoticeFormat.standard, docstring⟩ language year body
          = Except.ok (head :: more)
        ∧ isBlank front = true ∧ isBlank back = true
        ∧ OpensWith language head marker offset (front ++ wording (ofInt year) name ++ back) := by
  have hy := isYear_ofInt h₁ h₂
  obtain ⟨left, right, marker, offset, front, back, more, hcase, hlines⟩ :=
    exists_casing hl hN docstring body
  obtain ⟨line, hline, hahead⟩ := hlines year none hy.plainYears
  refine ⟨_, more, marker, offset, front, back, ?_, hcase.blank_front, hcase.blank_back,
    hcase.opens _ hy.isYears⟩
  rw [inserted_eq_map, hline]
  exact congrArg Except.ok hahead

theorem add_of_none {settings : NoticeSettings} {year : Int} {tail : List Text}
    (hn : (find language lines).notice = none)
    (h : inserted settings language year (bodyOf (lines.drop (preambleLength lines)))
      = Except.ok tail) :
    add lines settings language year
      = Except.ok ⟨preambleOf lines ++ tail, true, none, (find language lines).warnings⟩ := by
  rw [add, hn]
  simp only [Option.isSome_none, Bool.false_eq_true, if_false]
  rw [h]
  rfl

/-- What is added to a file without a notice stands behind its preamble. -/
theorem exists_of_add {settings : NoticeSettings} {year : Int} {edit : Edit}
    (hn : (find language lines).notice = none)
    (h : add lines settings language year = Except.ok edit) :
    ∃ tail, inserted settings language year (bodyOf (lines.drop (preambleLength lines)))
        = Except.ok tail ∧ edit.lines = preambleOf lines ++ tail := by
  cases hi : inserted settings language year (bodyOf (lines.drop (preambleLength lines))) with
  | error fault =>
      rw [add, hn] at h
      simp only [Option.isSome_none, Bool.false_eq_true, if_false] at h
      rw [hi] at h
      exact nomatch h
  | ok tail =>
      rw [add_of_none hn hi] at h
      obtain rfl := Except.ok.inj h
      exact ⟨tail, rfl, rfl⟩

/-- **What is added to a file is found in it.**  The notice is the first thing the search finds,
behind the preamble and one blank line, with the name and the year it was made from, and its
years are the digits of that year. -/
theorem find_add (hl : language ∈ Language.all) (hN : PlainName name) (docstring : Bool)
    {year : Int} (h₁ : 1000 ≤ year) (h₂ : year ≤ 9999)
    (hn : (find language lines).notice = none) :
    ∃ edit notice line,
      add lines ⟨name, NoticeFormat.standard, docstring⟩ language year = Except.ok edit
        ∧ find language edit.lines = ⟨some notice, []⟩
        ∧ notice.holder = name ∧ notice.startYear = year ∧ notice.endYear = none
        ∧ notice.line = (if preambleLength lines = 0 then 0 else preambleLength lines + 1)
        ∧ edit.lines[notice.line]? = some line
        ∧ notice.years.stop ≤ line.length ∧ notice.years.slice line = ofInt year := by
  have hy := isYear_ofInt h₁ h₂
  obtain ⟨head, more, marker, offset, front, back, hins, hf, hb, hopens⟩ :=
    inserted_standard hl hN docstring h₁ h₂ (bodyOf (lines.drop (preambleLength lines)))
  obtain ⟨stop, hfind⟩ := find_of_opensWith hopens (statement?_wording hN hy hf hb) rfl lines more
  obtain ⟨lead, tail, hhead, hlead⟩ := exists_of_commentText hopens.reads (by simp [wording])
  -- the years in the line stand behind its marker, its white space and the signifiers
  have hsplit : head = lead ++ front ++ standardLead ++ ofInt year
      ++ (' ' :: name ++ back ++ tail) := by
    rw [hhead, wording]
    simp
  have hspan : (⟨(front ++ standardLead).length,
      (front ++ standardLead).length + (ofInt year).length⟩ : Span).shift offset
        = ⟨(lead ++ front ++ standardLead).length,
          (lead ++ front ++ standardLead).length + (ofInt year).length⟩ := by
    simp [Span.shift, ← hlead, Nat.add_assoc]
  refine ⟨_, _, head, add_of_none hn hins, hfind, rfl, digitsValue_ofInt (by omega), rfl,
    length_preambleOf lines, ?_, ?_, ?_⟩
  · rw [Statement.toNotice, List.getElem?_append_right (Nat.le_refl _), Nat.sub_self]
    rfl
  · rw [Statement.toNotice, hspan, hsplit]
    simp only [List.length_append]
    omega
  · rw [Statement.toNotice, hspan, hsplit]
    exact Span.slice_append _ _ _

/-- A script with a shebang and an encoding pragma: the notice is on the fourth line. -/
theorem find_add_script :
    (find Language.python ["#!/usr/bin/env python", "# coding: utf-8", "x = 1"]).notice = none
      ∧ PlainName "Ada Lovelace"
      ∧ ∃ edit notice line,
        add ["#!/usr/bin/env python", "# coding: utf-8", "x = 1"]
            ⟨"Ada Lovelace", NoticeFormat.standard, true⟩ Language.python 2024 = Except.ok edit
          ∧ find Language.python edit.lines = ⟨some notice, []⟩
          ∧ notice.holder = "Ada Lovelace" ∧ notice.startYear = 2024 ∧ notice.endYear = none
          ∧ notice.line = 3
          ∧ edit.lines[notice.line]? = some line
          ∧ notice.years.stop ≤ line.length ∧ notice.years.slice line = "2024" :=
  ⟨by decide +kernel, by decide,
    find_add (by decide) (by decide) true (by decide) (by decide) (by decide +kernel)⟩

end Notice

end GitHooks
