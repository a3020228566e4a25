/-
**Adding a notice and updating it later.**

Two parts of the library write a range of years: a notice that is made for a range has it from the
start, and an update puts a last year behind the year of a notice that it has found again.  Both
write the same text into the same casing.  So a notice that was added for one year and is updated
to another leaves the file as if the notice had been put there for the range.

Main results:

* `Notice.find_casing` — a notice in its casing is found behind a preamble, with its year;
* `Notice.replaceYears_casing` — an update of it writes the wording of the range;
* `Notice.update_add` — adding and updating is putting the range there.
-/

import GitHooks.Proofs.Notice.Frame
import GitHooks.Proofs.Notice.Insert

set_option relaxedAutoImplicit false
set_option autoImplicit false

namespace GitHooks

theorem modify_append_cons {α : Type} (front : List α) (item : α) (back : List α) (f : α → α) :
    (front ++ item :: back).modify front.length f = front ++ f item :: back := by
  induction front with
  | nil => rfl
  | cons head front ih => exact congrArg (head :: ·) ih

namespace Notice

open Text
open Header

variable {language : Language} {lines : List Text} {name left right front back : Text}
  {marker : Marker} {offset : Nat} {notice : Notice} {year : Int}

/-- The wording of a notice, cut at its years. -/
theorem casing_eq_append (left right years name : Text) :
    left ++ wording years name ++ right
      = left ++ standardLead ++ years ++ (' ' :: name ++ right) := by
  simp [wording]

/-- **A notice in its casing is found** behind a preamble, with its year and the place of it. -/
theorem find_casing (hcase : Casing language name left right marker offset front back)
    (hN : PlainName name) (h₁ : 1000 ≤ year) (h₂ : year ≤ 9999) (lines more : List Text) :
    ∃ notice, find language
        (preambleOf lines ++ (left ++ wording (ofInt year) name ++ right) :: more)
          = ⟨some notice, []⟩
      ∧ notice.line = (preambleOf lines).length
      ∧ notice.startYear = year ∧ notice.endYear = none
      ∧ notice.years = ⟨(left ++ standardLead).length,
          (left ++ standardLead).length + (ofInt year).length⟩ := by
  have hy := isYear_ofInt h₁ h₂
  have hst := statement?_wording hN hy hcase.blank_front hcase.blank_back
  obtain ⟨stop, hfind⟩ := find_of_opensWith (hcase.opens _ hy.isYears) hst rfl lines more
  refine ⟨_, hfind, rfl, digitsValue_ofInt (by omega), rfl, ?_⟩
  rw [Statement.toNotice, Span.shift, List.length_append, List.length_append, hcase.length_left]
  simp only [Nat.add_assoc]

/-- **An update of a notice in its casing** writes the wording of the range. -/
theorem replaceYears_casing (hs : notice.startYear = year) (he : notice.endYear = none)
    (hyears : notice.years = ⟨(left ++ standardLead).length,
      (left ++ standardLead).length + (ofInt year).length⟩) {later : Int} (hlt : year < later) :
    replaceYears notice (left ++ wording (ofInt year) name ++ right) later
      = left ++ wording (yearsText year (some later)) name ++ right := by
  have hrange : yearsText year (some later) = ofInt year ++ " - ".toList ++ ofInt later := by
    rw [yearsText, if_neg (by omega)]
  rw [casing_eq_append, replaceYears_single he hyears, hs, casing_eq_append, hrange]

/-- **Adding and updating later is putting the range there.**  In the standard format the notice
for one year and the notice for a range are single lines, and an update of what was added for
`y₁` to a later year `y₂` is what putting the notice for the range there gives.  Where the history
of the file begins in `y₂` or later, or `y₂` is the year of the notice, nothing is changed. -/
theorem update_add (hl : language ∈ Language.all) (hN : PlainName name) (docstring : Bool)
    {y₁ y₂ : Int} (h₁ : 1000 ≤ y₁) (h₁₂ : y₁ ≤ y₂) (h₂ : y₂ ≤ 9999)
    (hn : (find language lines).notice = none) :
    ∃ single range edit,
      noticeLines ⟨name, NoticeFormat.standard, docstring⟩ language y₁ none = Except.ok [single]
        ∧ noticeLines ⟨name, NoticeFormat.standard, docstring⟩ language y₁ (some y₂)
          = Except.ok [range]
        ∧ add lines ⟨name, NoticeFormat.standard, docstring⟩ language y₁ = Except.ok edit
        ∧ edit.lines = preambleOf lines ++ ahead ⟨name, NoticeFormat.standard, docstring⟩ language
            (bodyOf (lines.drop (preambleLength lines))) [single]
        ∧ ∀ first : Int,
          (y₁ < y₂ → first < y₂ →
            (update edit.lines language first y₂).changed = true
              ∧ (update edit.lines language first y₂).lines
                = preambleOf lines ++ ahead ⟨name, NoticeFormat.standard, docstring⟩ language
                  (bodyOf (lines.drop (preambleLength lines))) [range])
          ∧ (y₂ = y₁ ∨ y₂ ≤ first →
            (update edit.lines language first y₂).changed = false
              ∧ (update edit.lines language first y₂).lines = edit.lines) := by
  obtain ⟨left, right, marker, offset, front, back, more, hcase, hlines⟩ :=
    exists_casing hl hN docstring (bodyOf (lines.drop (preambleLength lines)))
  have hy := isYear_ofInt h₁ (by omega : y₁ ≤ 9999)
  obtain ⟨single, hsingle, hahead⟩ := hlines y₁ none hy.plainYears
  obtain ⟨range, hrange, hahead'⟩ :=
    hlines y₁ (some y₂) (plainYears_yearsText h₁ (by omega) (by omega) h₂)
  have hins : inserted ⟨name, NoticeFormat.standard, docstring⟩ language y₁
      (bodyOf (lines.drop (preambleLength lines)))
        = Except.ok ((left ++ wording (ofInt y₁) name ++ right) :: more) := by
    rw [inserted_eq_map, hsingle]
    exact congrArg Except.ok hahead
  obtain ⟨notice, hfind, hline, hstart, hend, hyears⟩ :=
    find_casing hcase hN h₁ (by omega) lines more
  have hlast : notice.lastYear = y₁ := by
    rw [Notice.lastYear, hend, hstart]
    rfl
  refine ⟨single, range, _, hsingle, hrange, add_of_none hn hins, by rw [hahead]; rfl,
    fun first => ⟨fun hlt hfirst => ?_, fun hsame => ?_⟩⟩
  · rw [update_of_older hfind (by omega), hline, hahead']
    refine ⟨rfl, ?_⟩
    dsimp only
    rw [modify_append_cons, replaceYears_casing hstart hend hyears hlt]
  · rw [update_of_current hfind (by omega)]
    exact ⟨rfl, rfl⟩

/-- A notice in the docstring of a module, added in one year and updated in a later one. -/
theorem update_add_docstring :
    PlainName "Ada Lovelace"
      ∧ (find Language.python ["#!/usr/bin/env python", "'''Sums.'''", "x = 1"]).notice = none
      ∧ ∃ single range edit,
        noticeLines ⟨"Ada Lovelace", NoticeFormat.standard, true⟩ Language.python 2024 none
            = Except.ok [single]
          ∧ noticeLines ⟨"Ada Lovelace", NoticeFormat.standard, true⟩ Language.python 2024
              (some 2026) = Except.ok [range]
          ∧ add ["#!/usr/bin/env python", "'''Sums.'''", "x = 1"]
              ⟨"Ada Lovelace", NoticeFormat.standard, true⟩ Language.python 2024 = Except.ok edit
          ∧ (update edit.lines Language.python 2020 2026).lines
            = preambleOf ["#!/usr/bin/env python", "'''Sums.'''", "x = 1"]
              ++ ahead ⟨"Ada Lovelace", NoticeFormat.standard, true⟩ Language.python
                (bodyOf (["#!/usr/bin/env python", "'''Sums.'''", "x = 1"].drop
                  (preambleLength ["#!/usr/bin/env python", "'''Sums.'''", "x = 1"]))) [range] := by
  have hn : (find Language.python ["#!/usr/bin/env python", "'''Sums.'''", "x = 1"]).notice
      = none := by decide +kernel
  obtain ⟨single, range, edit, hsingle, hrange, hadd, -, hupdate⟩ :=
    update_add (by decide) (by decide : PlainName "Ada Lovelace") true
      (by decide : (1000 : Int) ≤ 2024) (by decide : (2024 : Int) ≤ 2026) (by decide) hn
  exact ⟨by decide, hn, single, range, edit, hsingle, hrange, hadd,
    ((hupdate 2020).1 (by decide) (by decide)).2⟩

end Notice

end GitHooks
