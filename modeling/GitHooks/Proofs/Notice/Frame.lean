/-
**What an update leaves alone.**

An update writes a year into the line of the notice.  Around the years the line is kept, and so is
every other line of the file.  Within the years a range keeps all that stands in front of its last
year.  A single year is not kept but written again from its value, and that is the text it was
only when the year does not begin with a zero.

Main definitions:

* `Notice.YearsAre` — what the characters of a notice's years look like;
* `Notice.redated` — a line with a last year put in or exchanged, and nothing else changed.

Main results:

* `Notice.yearsAre_of_find` — the line of a notice falls apart around its years;
* `Notice.replaceYears_eq_redated_iff` — when only the last year of a line is written;
* `Notice.update_frame` — what an update does to a file, and when it keeps the first year.
-/

import GitHooks.Proofs.Notice.Update

set_option relaxedAutoImplicit false
set_option autoImplicit false

namespace GitHooks

namespace Notice

open Text
open Header (commentText exists_of_commentText)

variable {comments : CommentStyle} {language : Language} {lines : List Text}
  {segment : Header.Segment} {line years front after : Text} {index : Nat} {notice : Notice}
  {warnings : List Malformed}

/-! ### The years of a notice -/

/-- The form of the years of a notice: a single year, or a text that ends with one. -/
def YearsAre (notice : Notice) (years : Text) : Prop :=
  match notice.endYear with
  | none => IsYear years ∧ notice.startYear = digitsValue years
  | some _ => ∃ stem last, years = stem ++ last ∧ IsYear last

theorem Statement.HasStem.yearsAre {statement : Statement} {stem : Text}
    (h : statement.HasStem years stem) (segment : Header.Segment) (offset index : Nat) :
    YearsAre (statement.toNotice segment offset index) years := by
  rw [YearsAre, Statement.toNotice]
  unfold Statement.HasStem at h
  cases he : statement.endYear with
  | none =>
      rw [he] at h
      exact ⟨h.1, congrArg Int.ofNat h.2.1⟩
  | some endYear =>
      rw [he] at h
      obtain ⟨last, hlast, hstem⟩ := h
      exact ⟨stem, last, hstem, hlast⟩

/-- A line that is read as a notice falls apart around the years of the notice. -/
theorem yearsAre_of_readLine
    (h : readLine comments segment line index = Except.ok (some notice)) :
    ∃ front years after, line = front ++ years ++ after
      ∧ notice.years = ⟨front.length, front.length + years.length⟩ ∧ YearsAre notice years := by
  obtain ⟨offset, text, statement, ht, hst, -, rfl⟩ := readLine_eq_some_iff.1 h
  obtain ⟨front, years, after, stem, rfl, hfront, -, hspan, hstem, -⟩ := statement?_redate hst
  obtain ⟨lead, tail, rfl, rfl⟩ := exists_of_commentText ht (by simp [hfront])
  refine ⟨lead ++ front, years, after ++ tail, by simp, ?_, hstem.yearsAre _ _ _⟩
  rw [Statement.toNotice, hspan, Span.shift]
  simp [Nat.add_assoc]

/-- **The line of a notice** falls apart around its years. -/
theorem yearsAre_of_find (h : find language lines = ⟨some notice, warnings⟩) :
    ∃ front years after, lines[notice.line]? = some (front ++ years ++ after)
      ∧ notice.years = ⟨front.length, front.length + years.length⟩ ∧ YearsAre notice years := by
  obtain ⟨before, visit, behind, hv, hr, -⟩ := find_eq_some_iff.1 h
  have hm : visit ∈ Header.visits language lines := by simp [hv]
  have hline : notice.line = visit.index := by
    obtain ⟨offset, text, statement, -, -, -, rfl⟩ := readLine_eq_some_iff.1 hr
    rfl
  obtain ⟨front, years, after, hsplit, hspan, hform⟩ := yearsAre_of_readLine hr
  refine ⟨front, years, after, ?_, hspan, hform⟩
  rw [hline, ← hsplit]
  exact (Header.mem_visits_iff.1 hm).2.2.2

/-! ### Only the last year -/

/-- A line with `year` as the last year of its notice and nothing else changed: behind a single
year it is put in after a hyphen, and in a range it takes the place of the last four digits. -/
def redated (notice : Notice) (line : Text) (year : Int) : Text :=
  match notice.endYear with
  | none => line.take notice.years.stop ++ " - " ++ ofInt year ++ line.drop notice.years.stop
  | some _ => line.take (notice.years.stop - 4) ++ ofInt year ++ line.drop notice.years.stop

theorem redated_single (he : notice.endYear = none)
    (hs : notice.years = ⟨front.length, front.length + years.length⟩) (year : Int) :
    redated notice (front ++ years ++ after) year
      = front ++ (years ++ " - ".toList ++ ofInt year) ++ after := by
  have hstop : notice.years.stop = (front ++ years).length := by rw [hs, List.length_append]
  rw [redated, he, hstop]
  simp only [List.take_left, List.drop_left]
  simp

theorem replaceYears_single (he : notice.endYear = none)
    (hs : notice.years = ⟨front.length, front.length + years.length⟩) (year : Int) :
    replaceYears notice (front ++ years ++ after) year
      = front ++ (ofInt notice.startYear ++ " - ".toList ++ ofInt year) ++ after := by
  rw [replaceYears, reachingYears, he, hs]
  simp

/-- In a range an update writes the last year and nothing else. -/
theorem replaceYears_range {endYear : Int} (he : notice.endYear = some endYear)
    (hs : notice.years = ⟨front.length, front.length + years.length⟩)
    (hy : YearsAre notice years) (year : Int) :
    replaceYears notice (front ++ years ++ after) year
      = redated notice (front ++ years ++ after) year := by
  rw [YearsAre, he] at hy
  obtain ⟨stem, last, rfl, hlast⟩ := hy
  have hlength : (stem ++ last).length = stem.length + 4 := by rw [List.length_append, hlast.1]
  have hstart : (front ++ (stem ++ last) ++ after).take notice.years.start = front := by
    rw [hs, List.append_assoc, List.take_left]
  have hstem : (notice.years.slice (front ++ (stem ++ last) ++ after)).take
      ((notice.years.slice (front ++ (stem ++ last) ++ after)).length - 4) = stem := by
    rw [hs, Span.slice_append, hlength, Nat.add_sub_cancel, List.take_left]
  -- so both keep the line up to the last year
  have hkeep : (front ++ (stem ++ last) ++ after).take (notice.years.stop - 4) = front ++ stem := by
    have hstop : notice.years.stop - 4 = (front ++ stem).length := by
      rw [hs, hlength, List.length_append]
      dsimp only
      omega
    rw [hstop, ← List.append_assoc front, List.append_assoc (front ++ stem), List.take_left]
  rw [replaceYears, reachingYears, redated, he]
  dsimp only
  rw [hstart, hstem, hkeep, ← List.append_assoc front]

/-- A year of four digits is written as it was read exactly when it does not begin with a zero. -/
theorem ofNat_digitsValue_eq_iff (h : IsYear years) :
    ofNat (digitsValue years) = years ↔ 1000 ≤ digitsValue years := by
  constructor
  · intro he
    -- a smaller number has fewer than four digits
    by_contra hlt
    have hthree : (Nat.toDigits 10 (digitsValue years)).length ≤ 3 :=
      (Nat.length_toDigits_le_iff (by decide) (by decide)).2 (by omega)
    have hfour : (ofNat (digitsValue years)).length = 4 := by rw [he, h.1]
    rw [ofNat] at hfour
    omega
  · exact ofNat_digitsValue h

/-- **Only the last year of a line is written** exactly when the notice has a range, or a single
year that does not begin with a zero. -/
theorem replaceYears_eq_redated_iff
    (hs : notice.years = ⟨front.length, front.length + years.length⟩)
    (hy : YearsAre notice years) (year : Int) :
    replaceYears notice (front ++ years ++ after) year
        = redated notice (front ++ years ++ after) year
      ↔ notice.endYear.isSome = true ∨ 1000 ≤ notice.startYear := by
  cases he : notice.endYear with
  | some endYear =>
      rw [replaceYears_range he hs hy]
      exact ⟨fun _ => Or.inl rfl, fun _ => rfl⟩
  | none =>
      rw [YearsAre, he] at hy
      obtain ⟨hyear, hvalue⟩ := hy
      have hstart : ofInt notice.startYear = ofNat (digitsValue years) := by rw [hvalue]; rfl
      rw [replaceYears_single he hs, redated_single he hs, List.append_left_inj,
        List.append_right_inj, List.append_left_inj, List.append_left_inj, hstart,
        ofNat_digitsValue_eq_iff hyear, hvalue, ← Int.ofNat_le]
      simp

/-! ### The rest of the file -/

/-- **What an update leaves alone.**  Either it reports no change and the lines are what they were,
or the file has a notice that ends before `year` and a history that begins before it.  Then the
line of the notice is the only one that is replaced.  The new line is the old one with a last year
put in or exchanged exactly when the notice has a range or a first year that does not begin with a
zero; a single year that does is written without its zeros. -/
theorem update_frame (lines : List Text) (language : Language) (first year : Int) :
    ((update lines language first year).changed = false
        ∧ (update lines language first year).lines = lines)
      ∨ ∃ notice front years after new,
        (find language lines).notice = some notice
          ∧ notice.lastYear < year ∧ first < year
          ∧ lines[notice.line]? = some (front ++ years ++ after)
          ∧ notice.years = ⟨front.length, front.length + years.length⟩
          ∧ YearsAre notice years
          ∧ update lines language first year
            = ⟨lines.set notice.line new, true, some notice, (find language lines).warnings⟩
          ∧ (new = redated notice (front ++ years ++ after) year
            ↔ notice.endYear.isSome = true ∨ 1000 ≤ notice.startYear)
          ∧ (notice.endYear = none →
            new = front ++ (ofInt notice.startYear ++ " - ".toList ++ ofInt year) ++ after) := by
  cases hn : (find language lines).notice with
  | none =>
      left
      rw [update]
      simp only [hn]
      exact ⟨rfl, rfl⟩
  | some notice =>
      have h : find language lines = ⟨some notice, (find language lines).warnings⟩ := by rw [← hn]
      by_cases hcur : notice.lastYear ≥ year ∨ first ≥ year
      · left
        rw [update_of_current h hcur]
        exact ⟨rfl, rfl⟩
      · right
        obtain ⟨front, years, after, hget, hspan, hform⟩ := yearsAre_of_find h
        refine ⟨notice, front, years, after, replaceYears notice (front ++ years ++ after) year,
          rfl, by omega, by omega, hget, hspan, hform, ?_,
          replaceYears_eq_redated_iff hspan hform year,
          fun he => replaceYears_single he hspan year⟩
        obtain ⟨hlt, hline⟩ := List.getElem?_eq_some_iff.1 hget
        rw [update_of_older h hcur, List.modify_eq_set_getElem?, hget]
        rfl

/-- The first year of a notice is not kept when it begins with a zero. -/
theorem not_update_redated :
    ¬ ∀ (lines : List Text), ∀ language ∈ Language.all, ∀ first year : Int,
      1000 ≤ year → year ≤ 9999 → (update lines language first year).changed = true →
      ∃ notice line, (find language lines).notice = some notice
        ∧ lines[notice.line]? = some line
        ∧ (update lines language first year).lines
          = lines.set notice.line (redated notice line year) := by
  intro h
  have hfind : (find Language.python ["# Copyright 0123 Ada"]).notice
      = some ⟨"Ada", 123, none, 0, ⟨0, 1⟩, Marker.line, ⟨12, 16⟩⟩ := by decide +kernel
  have hupdate : (update ["# Copyright 0123 Ada"] Language.python 2020 2024).changed = true
      ∧ (update ["# Copyright 0123 Ada"] Language.python 2020 2024).lines
        = ["# Copyright 123 - 2024 Ada"] := by decide +kernel
  obtain ⟨notice, line, hn, hget, hlines⟩ := h ["# Copyright 0123 Ada"] Language.python (by decide)
    2020 2024 (by decide) (by decide) hupdate.1
  obtain rfl := Option.some.inj (hfind.symm.trans hn)
  obtain rfl := Option.some.inj hget
  rw [hupdate.2] at hlines
  exact absurd hlines (by decide)

end Notice

end GitHooks
