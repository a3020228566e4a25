/-
**The standard wording.**

A notice in the standard format is one line: the signifiers, the year and the holder's name.  For a
name that begins and ends as names do, the text is read back as the statement it was made from,
with white space before and after it or without.

Main definitions:

* `Notice.PlainName` — names that the reader of notices does not mistake for anything else;
* `Notice.wording` — years and a name in the standard format;
* `Notice.PlainYears` — years as a notice is given them.

Main results:

* `Notice.plainLines_standard` — the lines of a notice in the standard format;
* `Notice.statement?_wording` — what is read back from them.
-/

import GitHooks.Notice.Format
import GitHooks.Notice.Header
import GitHooks.Proofs.Notice.Statement
import GitHooks.Proofs.Text.Split

set_option relaxedAutoImplicit false
set_option autoImplicit false

namespace GitHooks

namespace Notice

open Text

variable {name years : Text}

/-! ### Names -/

/-- A name that is read back: trimmed, on one line, without what would be read as a part of the
years or of the markers around it. -/
structure PlainName (name : Text) : Prop where
  ne_nil : name ≠ []
  trimmed : trim name = name
  oneLine : '\n' ∉ name
  front : startsWith name "-" = false ∧ startsWith name "," = false
  back : endsWith name "," = false
  coding : occursIn "coding:" name = false ∧ occursIn "coding=" name = false
  closing : occursIn "*/" name = false ∧ occursIn "-->" name = false
  quotes : ∀ quote ∈ Header.docstringQuotes, occursIn quote name = false

instance (name : Text) : Decidable (PlainName name) :=
  decidable_of_iff
    ((name ≠ [] ∧ trim name = name ∧ '\n' ∉ name)
      ∧ ((startsWith name "-" = false ∧ startsWith name "," = false) ∧ endsWith name "," = false)
      ∧ (occursIn "coding:" name = false ∧ occursIn "coding=" name = false)
      ∧ (occursIn "*/" name = false ∧ occursIn "-->" name = false)
      ∧ ∀ quote ∈ Header.docstringQuotes, occursIn quote name = false)
    ⟨fun ⟨⟨h₁, h₂, h₃⟩, ⟨h₄, h₅⟩, h₆, h₇, h₈⟩ => ⟨h₁, h₂, h₃, h₄, h₅, h₆, h₇, h₈⟩,
      fun h => ⟨⟨h.ne_nil, h.trimmed, h.oneLine⟩, ⟨h.front, h.back⟩, h.coding, h.closing,
        h.quotes⟩⟩

theorem PlainName.exists_cons (h : PlainName name) :
    ∃ c u, name = c :: u ∧ isSpace c = false ∧ c ≠ '-' ∧ c ≠ ',' := by
  obtain ⟨⟨c, u, rfl, hc⟩, -⟩ := ends_of_trim_eq h.trimmed h.ne_nil
  have hf := h.front
  simp only [startsWith_eq_false_iff] at hf
  refine ⟨c, u, rfl, hc, ?_, ?_⟩
  · rintro rfl
    exact hf.1 ⟨u, rfl⟩
  · rintro rfl
    exact hf.2 ⟨u, rfl⟩

theorem PlainName.exists_concat (h : PlainName name) :
    ∃ u c, name = u ++ [c] ∧ isSpace c = false ∧ c ≠ ',' := by
  obtain ⟨-, u, c, rfl, hc⟩ := ends_of_trim_eq h.trimmed h.ne_nil
  refine ⟨u, c, rfl, hc, ?_⟩
  rintro rfl
  exact endsWith_eq_false_iff.1 h.back ⟨u, rfl⟩

/-- A name is trimmed with white space before and after it. -/
theorem PlainName.trim_around (h : PlainName name) {front back : Text}
    (hf : isBlank front = true) (hb : isBlank back = true) :
    trim (front ++ name ++ back) = name := by
  obtain ⟨c, u, hc, hs, -, -⟩ := h.exists_cons
  have hstart : trimStart (front ++ name ++ back) = name ++ back := by
    rw [List.append_assoc, trimStart_append_of_isBlank hf, hc, List.cons_append, trimStart_cons hs]
  obtain ⟨v, d, hd, hs', -⟩ := h.exists_concat
  rw [trim, hstart, trimEnd_append_of_isBlank hb, hd, trimEnd_concat hs']

/-- A name without edges of its own is the holder. -/
theorem PlainName.holderOf (h : PlainName name) {front back : Text}
    (hf : isBlank front = true) (hb : isBlank back = true) :
    holderOf [] (front ++ name ++ back) = name := by
  rw [Notice.holderOf, h.trim_around hf hb]
  have hj : joinWith " " ([trim [], name].filter fun part => !part.isEmpty) = name := by
    simp [h.ne_nil]
  rw [hj, stripBoth]
  obtain ⟨c, u, hc, hs, -, hcomma⟩ := h.exists_cons
  have hstart : name.dropWhile isHolderEdge = name := by
    rw [hc, List.dropWhile_cons_of_neg (by simp [isHolderEdge, hs, hcomma])]
  obtain ⟨v, d, hd, hs', hcomma'⟩ := h.exists_concat
  have hend : name.reverse.dropWhile isHolderEdge = name.reverse := by
    rw [hd, List.reverse_append, List.reverse_singleton, List.singleton_append,
      List.dropWhile_cons_of_neg (by simp [isHolderEdge, hs', hcomma'])]
  rw [hstart, hend, List.reverse_reverse]

/-! ### The text of a notice -/

/-- The text in front of the years in the standard format. -/
def standardLead : Text := "Copyright (c) "

/-- Years and a name in the standard format. -/
def wording (years name : Text) : Text := standardLead ++ years ++ ' ' :: name

/-- The standard format filled in. -/
theorem fill_standard (h : '\x7b' ∉ years) (name : Text) :
    fill name years NoticeFormat.standard = wording years name := by
  have hyear : replaceAll NoticeFormat.yearSlot years NoticeFormat.standard
      = standardLead ++ years ++ ' ' :: NoticeFormat.nameSlot := by
    have : replaceAll NoticeFormat.yearSlot years NoticeFormat.standard
      = standardLead ++ (years ++ ' ' :: NoticeFormat.nameSlot) := rfl
    rw [this, List.append_assoc]
  -- the year has no brace, so that the place of the name is found behind it
  have hmem : '\x7b' ∉ standardLead ++ years := by
    rw [List.mem_append, not_or]
    exact ⟨by decide, h⟩
  have hname : replaceAll NoticeFormat.nameSlot name (' ' :: NoticeFormat.nameSlot)
      = ' ' :: name := by
    have : replaceAll NoticeFormat.nameSlot name (' ' :: NoticeFormat.nameSlot)
      = ' ' :: (name ++ []) := rfl
    rw [this, List.append_nil]
  rw [fill, hyear, wording]
  exact (replaceAll_append_of_not_mem hmem _).trans (by rw [← hname]; rfl)

theorem not_mem_wording (hN : PlainName name) (hy : '\n' ∉ years) : '\n' ∉ wording years name := by
  rw [wording, List.mem_append, List.mem_append, List.mem_cons, not_or, not_or, not_or]
  exact ⟨⟨by decide, hy⟩, by decide, hN.oneLine⟩

/-! ### Its years -/

/-- Years as a notice is given them: a year field on one line. -/
structure PlainYears (years : Text) : Prop where
  isYears : IsYears years
  oneLine : '\n' ∉ years

theorem IsYear.plainYears (h : IsYear years) : PlainYears years := by
  refine ⟨h.isYears, fun hm => ?_⟩
  have := List.all_eq_true.1 h.2 _ hm
  simp at this

theorem not_mem_of_isYears {c : Char} (hc : isYearChar c = false) (h : IsYears years) :
    c ∉ years := by
  obtain ⟨d, middle, e, rfl, hd, he, hm⟩ := h
  have hdigit : ∀ d : Char, d.isDigit = true → c ≠ d := by
    rintro d hd rfl
    simp [isYearChar, hd] at hc
  rw [List.mem_cons, List.mem_append, List.mem_singleton, not_or, not_or]
  refine ⟨hdigit d hd, fun hmem => ?_, hdigit e he⟩
  have := List.all_eq_true.1 hm c hmem
  simp [hc] at this

/-- One year or two of four digits are plain years. -/
theorem plainYears_yearsText {start stop : Int} (h₁ : 1000 ≤ start) (h₂ : start ≤ 9999)
    (h₃ : 1000 ≤ stop) (h₄ : stop ≤ 9999) : PlainYears (yearsText start (some stop)) := by
  have hstart := isYear_ofInt h₁ h₂
  have hstop := isYear_ofInt h₃ h₄
  rw [yearsText]
  split
  · exact hstart.plainYears
  · refine ⟨isYears_range hstart isSeparator_plain.all_isYearChar hstop, ?_⟩
    rw [List.mem_append, List.mem_append, not_or, not_or]
    exact ⟨⟨hstart.plainYears.oneLine, by decide⟩, hstop.plainYears.oneLine⟩

/-- **The lines of a notice in the standard format.** -/
theorem plainLines_standard (hN : PlainName name) {startYear : Int} {endYear : Option Int}
    (hy : PlainYears (yearsText startYear endYear)) :
    plainLines name startYear endYear NoticeFormat.standard
      = Except.ok [wording (yearsText startYear endYear) name] := by
  have hcheck : NoticeFormat.check NoticeFormat.standard = Except.ok () :=
    NoticeFormat.check_eq_ok_iff.2 (by decide)
  have hlines := lines_of_not_mem (not_mem_wording hN hy.oneLine)
    (List.append_ne_nil_of_right_ne_nil _ (List.cons_ne_nil _ _))
  rw [plainLines, hcheck, ← hlines,
    ← fill_standard (not_mem_of_isYears (by decide) hy.isYears) name]
  rfl

/-! ### Reading it back -/

theorem skipSignifiers_of_isDigit {c : Char} (h : c.isDigit = true) (t : Text) :
    skipSignifiers 0 (c :: t) = c :: t := by
  have hl := Nat.le_zero.1 (signifierLength_append_digit_le h [] t)
  rw [List.nil_append] at hl
  rw [skipSignifiers, isSpace_of_isDigit h, if_neg Bool.false_ne_true, hl]

theorem afterSignifiers?_standard {front : Text} (hf : isBlank front = true) {c : Char}
    (hc : c.isDigit = true) (t : Text) :
    afterSignifiers? (front ++ standardLead ++ c :: t) = some (c :: t) := by
  have hlength : signifierLength (trimStart (front ++ standardLead ++ c :: t)) = 9 := by
    rw [List.append_assoc, trimStart_append_of_isBlank hf]
    rfl
  have hskip : skipSignifiers 0 (standardLead ++ c :: t) = skipSignifiers 0 (c :: t) := rfl
  rw [afterSignifiers?, hlength, if_neg (by decide), List.append_assoc,
    skipSignifiers_of_isBlank hf, hskip, skipSignifiers_of_isDigit hc]

/-- **The standard wording is read back**, with white space around it or without. -/
theorem statement?_wording (hN : PlainName name) (hy : IsYear years) {front back : Text}
    (hf : isBlank front = true) (hb : isBlank back = true) :
    statement? (front ++ wording years name ++ back)
      = some ⟨name, digitsValue years, none,
          ⟨(front ++ standardLead).length, (front ++ standardLead).length + years.length⟩⟩ := by
  obtain ⟨d, digits, hd, hdigit⟩ := hy.exists_cons
  have htext : front ++ wording years name ++ back
      = front ++ standardLead ++ d :: (digits ++ ([' '] ++ name ++ back)) := by
    simp [wording, hd]
  have hrest : d :: (digits ++ ([' '] ++ name ++ back)) = years ++ ([' '] ++ name ++ back) := by
    simp [hd]
  have hw : startsInWord ([' '] ++ name ++ back) = false := rfl
  -- what follows the year does not make it a range
  have hrange : rangeAt? ([' '] ++ name ++ back) = none := by
    obtain ⟨c, u, hc, hs, hne, -⟩ := hN.exists_cons
    have hdrop : ([' '] ++ name ++ back).dropWhile isSpace = c :: (u ++ back) := by
      have := (trimStart_append_of_isBlank (by decide : isBlank [' '] = true) (name ++ back)).trans
        (by rw [hc, List.cons_append, trimStart_cons hs])
      rwa [List.append_assoc]
    rw [rangeAt?, hdrop]
    split
    · next h => exact absurd (List.cons.inj h).1 hne
    · rfl
  have hfield : YearField.around [] years ([' '] ++ name ++ back)
      = ⟨[], years, none, [' '] ++ name ++ back⟩ := by
    rw [YearField.around, hrange]
  rw [statement?_eq_bind, htext, afterSignifiers?_standard hf hdigit, Option.bind_some, hrest,
    yearField?_of_isYear hy hw, Option.bind_some, hfield, Statement.ofField?,
    hN.holderOf (by decide) hb, if_neg (by simp [hN.ne_nil])]
  have hlen : (front ++ standardLead ++ (years ++ ([' '] ++ name ++ back))).length
      - (years ++ ([' '] ++ name ++ back)).length = (front ++ standardLead).length := by
    rw [List.length_append, Nat.add_sub_cancel]
  rw [hlen]
  simp [YearField.text]

end Notice

end GitHooks
