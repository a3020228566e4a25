/-
**Updating a notice, year after year.**

An update writes a new last year into the line of the notice.  The line is read again as the same
notice with that last year, whatever stands around its years, and the rest of the file is read as
before.  What an update keeps of the years is their stem, and the stem is the same after the
update; so updates made one after the other do what the last of them does alone.

Main definitions:

* `Notice.Statement.toNotice` — the notice that a comment text states, at its place in a file;
* `Notice.reaching` — a notice after an update.

Main results:

* `Notice.readLine_replaceYears` — the updated line is read as the updated notice;
* `Notice.find_update` — the updated file has the updated notice;
* `Notice.update_update` — an updated file is read back, is left alone in the same year, and is
  updated again as the first file would be.
-/

import GitHooks.Notice.Edit
import GitHooks.Proofs.Header.YearLines
import GitHooks.Proofs.Notice.Visits

set_option relaxedAutoImplicit false
set_option autoImplicit false

namespace GitHooks

theorem Span.slice_append {α : Type} (front items back : List α) :
    (⟨front.length, front.length + items.length⟩ : Span).slice (front ++ items ++ back)
      = items := by
  simp [Span.slice]

theorem modify_congr {α : Type} {items : List α} {i : Nat} {item : α} {f g : α → α}
    (hi : items[i]? = some item) (h : f item = g item) : items.modify i f = items.modify i g := by
  refine List.ext_getElem? fun j => ?_
  rw [List.getElem?_modify, List.getElem?_modify]
  by_cases hj : i = j
  · subst hj
    simp [hi, h]
  · simp [hj]

namespace Notice

open Text
open Header (Undated Alike commentText commentText_replace alike_of_isYears)

variable {comments : CommentStyle} {language : Language} {lines : List Text}
  {segment : Header.Segment} {line : Text} {index : Nat} {notice : Notice} {year : Int}

/-! ### Reading a line -/

/-- The notice that a comment text states, where the text begins `offset` characters into the line
with the given index. -/
def Statement.toNotice (statement : Statement) (segment : Header.Segment) (offset index : Nat) :
    Notice :=
  { holder := statement.holder
    startYear := statement.startYear
    endYear := statement.endYear.map Int.ofNat
    line := index
    block := segment.lines
    marker := segment.marker
    years := statement.years.shift offset }

theorem readLine_eq_match {offset : Nat} {text : Text}
    (h : commentText comments segment.marker (index == segment.lines.start) line = (offset, text)) :
    readLine comments segment line index =
      match statement? text with
      | none => Except.ok none
      | some statement =>
        match statement.endYear with
        | some endYear =>
          if endYear < statement.startYear then
            Except.error ⟨index + 1, statement.startYear, endYear⟩
          else Except.ok (some (statement.toNotice segment offset index))
        | none => Except.ok (some (statement.toNotice segment offset index)) := by
  rw [readLine, h]
  rfl

/-- A line is read as a notice when its text makes a statement whose years do not run backwards. -/
theorem readLine_eq_some_iff :
    readLine comments segment line index = Except.ok (some notice) ↔
      ∃ offset text statement,
        commentText comments segment.marker (index == segment.lines.start) line = (offset, text)
          ∧ statement? text = some statement
          ∧ (∀ endYear, statement.endYear = some endYear → statement.startYear ≤ endYear)
          ∧ notice = statement.toNotice segment offset index := by
  constructor
  · intro h
    obtain ⟨⟨offset, text⟩, ht⟩ : ∃ read,
        commentText comments segment.marker (index == segment.lines.start) line = read := ⟨_, rfl⟩
    rw [readLine_eq_match ht] at h
    split at h
    · simp at h
    · next statement hst =>
      refine ⟨offset, text, statement, ht, hst, ?_⟩
      split at h
      · next endYear he =>
        split at h
        · simp at h
        · refine ⟨fun year hy => ?_, (Option.some.inj (Except.ok.inj h)).symm⟩
          obtain rfl := Option.some.inj (he.symm.trans hy)
          omega
      · next he =>
        exact ⟨fun year hy => by simp [he] at hy, (Option.some.inj (Except.ok.inj h)).symm⟩
  · rintro ⟨offset, text, statement, ht, hst, hy, rfl⟩
    rw [readLine_eq_match ht]
    simp only [hst]
    split
    · next endYear he =>
      have := hy endYear he
      rw [if_neg (by omega)]
    · rfl

/-- The years of a notice that has been read do not run backwards. -/
theorem startYear_le_lastYear (h : readLine comments segment line index = Except.ok (some notice)) :
    notice.startYear ≤ notice.lastYear := by
  obtain ⟨offset, text, statement, -, -, hy, rfl⟩ := readLine_eq_some_iff.1 h
  rw [Notice.lastYear, Statement.toNotice]
  cases he : statement.endYear with
  | none => exact Int.le_refl _
  | some endYear => exact Int.ofNat_le.2 (hy endYear he)

/-! ### The updated line -/

/-- A notice after an update to `year`, when `line` was its line before. -/
def reaching (notice : Notice) (line : Text) (year : Int) : Notice :=
  { notice with
    endYear := some year
    years := ⟨notice.years.start,
      notice.years.start + (reachingYears notice (notice.years.slice line) year).length⟩ }

/-- The years that an update writes are the stem of the years before it, and the new year. -/
theorem reachingYears_eq {statement : Statement} {years stem : Text}
    (hstem : statement.HasStem years stem) (hs : 1000 ≤ statement.startYear) {offset : Nat}
    (hn : notice = statement.toNotice segment offset index) (year : Int) :
    reachingYears notice years year = stem ++ ofInt year := by
  subst hn
  unfold Statement.HasStem at hstem
  unfold reachingYears Statement.toNotice
  cases he : statement.endYear with
  | none =>
      rw [he] at hstem
      obtain ⟨hy, hv, rfl⟩ := hstem
      have : ofInt (statement.startYear : Int) = years := by
        rw [hv] at hs ⊢
        exact ofNat_digitsValue hy hs
      simp [this]
  | some last =>
      rw [he] at hstem
      obtain ⟨last, hl, rfl⟩ := hstem
      have : (stem ++ last).length - 4 = stem.length := by
        rw [List.length_append, hl.1]
        omega
      simp only [Option.map_some, this, List.take_left]

/-- **The updated line is read as the updated notice.**  The scan of the header learns nothing new
from it, it begins as it did up to the years, and another update does to it what it would have
done to the line before. -/
theorem readLine_replaceYears (hu : Undated language.comments)
    (h : readLine language.comments segment line index = Except.ok (some notice))
    (hs : 1000 ≤ notice.startYear) (hy : notice.lastYear ≤ year) (hy' : year ≤ 9999) :
    readLine language.comments segment (replaceYears notice line year) index
        = Except.ok (some (reaching notice line year))
      ∧ Alike language line (replaceYears notice line year)
      ∧ (replaceYears notice line year).take notice.years.start = line.take notice.years.start
      ∧ ∀ later, replaceYears (reaching notice line year) (replaceYears notice line year) later
          = replaceYears notice line later := by
  obtain ⟨offset, text, statement, ht, hst, hacc, hn⟩ := readLine_eq_some_iff.1 h
  obtain ⟨front, years, after, stem, rfl, hfront, hyears, hspan, hstem, hr⟩ := statement?_redate hst
  -- the line is the years between two texts, and only the years are rewritten
  obtain ⟨t, u, rfl, hlen, hc⟩ := commentText_replace hu ht hfront hyears
  have hstart : notice.startYear = statement.startYear := by rw [hn]; rfl
  have hle := startYear_le_lastYear h
  have hnyears : notice.years = ⟨t.length, t.length + years.length⟩ := by
    rw [hn, Statement.toNotice, hspan, Span.shift, hlen]
    simp [Nat.add_assoc]
  have hyear : IsYear (ofInt year) := isYear_ofInt (by omega) hy'
  have hreach := reachingYears_eq hstem (by omega) hn
  have hline : ∀ y, replaceYears notice (t ++ years ++ u) y = t ++ (stem ++ ofInt y) ++ u := by
    intro y
    rw [replaceYears, hnyears, Span.slice_append, hreach]
    simp
  have hn' : reaching notice (t ++ years ++ u) year
      = { notice with
          endYear := some year
          years := ⟨t.length, t.length + (stem ++ ofInt year).length⟩ } := by
    rw [reaching, hnyears, Span.slice_append, hreach]
  obtain ⟨hnew, hst'⟩ := hr (ofInt year) hyear
  rw [hline, hn']
  refine ⟨?_, alike_of_isYears hu hyears hnew t u, ?_, fun later => ?_⟩
  · have hvalue := digitsValue_ofInt (by omega : 0 ≤ year)
    refine readLine_eq_some_iff.2 ⟨offset, _, _, hc _ hnew, hst', ?_, ?_⟩
    · intro endYear he
      obtain rfl : digitsValue (ofInt year) = endYear := Option.some.inj he
      change statement.startYear ≤ digitsValue (ofInt year)
      omega
    · rw [hn, Statement.toNotice, Statement.toNotice, Option.map_some, hlen, Nat.add_assoc]
      simp [hvalue, Span.shift]
  · rw [hnyears]
    simp
  · have htake : (stem ++ ofInt year).length - 4 = stem.length := by
      rw [List.length_append, hyear.1]
      omega
    rw [hline, replaceYears, reachingYears]
    simp only [Span.slice_append, htake, List.take_left]
    simp

/-! ### The updated file -/

variable {warnings : List Malformed} {first : Int}

/-- **The updated file has the updated notice**, with the same remarks. -/
theorem find_update (hl : language ∈ Language.all)
    (h : find language lines = ⟨some notice, warnings⟩) (hs : 1000 ≤ notice.startYear) :
    ∃ line, lines[notice.line]? = some line ∧ ∀ year, notice.lastYear ≤ year → year ≤ 9999 →
      find language (lines.modify notice.line fun line => replaceYears notice line year)
          = ⟨some (reaching notice line year), warnings⟩
        ∧ (replaceYears notice line year).take notice.years.start = line.take notice.years.start
        ∧ ∀ later, replaceYears (reaching notice line year) (replaceYears notice line year) later
            = replaceYears notice line later := by
  obtain ⟨visit, hv, hr, hm⟩ := find_modify h
  have hline : notice.line = visit.index := by
    obtain ⟨offset, text, statement, -, -, -, rfl⟩ := readLine_eq_some_iff.1 hr
    rfl
  have hget := (Header.mem_visits_iff.1 hv).2.2.2
  rw [hline]
  refine ⟨visit.line, hget, fun year hy hy' => ?_⟩
  obtain ⟨hread, halike, htake, hlater⟩ :=
    readLine_replaceYears (Header.undated_of_mem hl) hr hs hy hy'
  refine ⟨hm _ _ (Header.segments_modify fun line hg => ?_) hread, htake, hlater⟩
  obtain rfl := Option.some.inj (hget.symm.trans hg)
  exact halike

theorem update_of_current (h : find language lines = ⟨some notice, warnings⟩)
    (hy : notice.lastYear ≥ year ∨ first ≥ year) :
    update lines language first year = Edit.unchanged lines ⟨some notice, warnings⟩ := by
  rw [update, h]
  exact if_pos hy

theorem update_of_older (h : find language lines = ⟨some notice, warnings⟩)
    (hy : ¬ (notice.lastYear ≥ year ∨ first ≥ year)) :
    update lines language first year
      = ⟨lines.modify notice.line fun line => replaceYears notice line year, true, some notice,
          warnings⟩ := by
  rw [update, h]
  exact if_neg hy

/-- An update to a later year does to the updated file what it does to the file before. -/
theorem update_later (h : find language lines = ⟨some notice, warnings⟩) {y₁ y₂ : Int}
    (hget : lines[notice.line]? = some line)
    (hfind : find language (lines.modify notice.line fun line => replaceYears notice line y₁)
      = ⟨some (reaching notice line y₁), warnings⟩)
    (hlater : replaceYears (reaching notice line y₁) (replaceYears notice line y₁) y₂
      = replaceYears notice line y₂)
    (hlast : notice.lastYear < y₂) (hfirst : first < y₂) (hlt : y₁ < y₂) :
    (update (lines.modify notice.line fun line => replaceYears notice line y₁) language first
        y₂).lines
      = (update lines language first y₂).lines := by
  have holder : ¬ ((reaching notice line y₁).lastYear ≥ y₂ ∨ first ≥ y₂) := by
    rintro (hc | hc)
    · exact absurd (show y₁ ≥ y₂ from hc) (by omega)
    · omega
  rw [update_of_older hfind holder, update_of_older h (by omega)]
  change (lines.modify notice.line _).modify notice.line _ = lines.modify notice.line _
  rw [List.modify_modify_eq]
  exact modify_congr hget hlater

/-- **Updating is stable and composes over the years.**  After an update the notice is found again
where it was, with the later of its last year and the year of the update; an update to the same
year leaves the file alone; and an update to a later year does what it would have done to the file
before the first one. -/
theorem update_update (hl : language ∈ Language.all)
    (hn : (find language lines).notice = some notice) (hs : 1000 ≤ notice.startYear)
    {y₁ y₂ : Int} (hfirst : first < y₁) (hle : y₁ ≤ y₂) (hy₂ : y₂ ≤ 9999) :
    (∃ notice' line line',
        find language (update lines language first y₁).lines
            = ⟨some notice', (find language lines).warnings⟩
          ∧ notice'.line = notice.line ∧ notice'.block = notice.block
          ∧ notice'.marker = notice.marker ∧ notice'.holder = notice.holder
          ∧ notice'.startYear = notice.startYear
          ∧ notice'.lastYear = max notice.lastYear y₁
          ∧ notice'.years.start = notice.years.start
          ∧ lines[notice.line]? = some line
          ∧ (update lines language first y₁).lines[notice.line]? = some line'
          ∧ (notice'.years.inBytes line').start = (notice.years.inBytes line).start)
      ∧ (update (update lines language first y₁).lines language first y₁).changed = false
      ∧ (update (update lines language first y₁).lines language first y₁).lines
          = (update lines language first y₁).lines
      ∧ (update (update lines language first y₁).lines language first y₂).lines
          = (update lines language first y₂).lines := by
  obtain ⟨warnings, h⟩ : ∃ warnings, find language lines = ⟨some notice, warnings⟩ :=
    ⟨(find language lines).warnings, by rw [← hn]⟩
  obtain ⟨line, hget, hup⟩ := find_update hl h hs
  by_cases hcur : notice.lastYear ≥ y₁ ∨ first ≥ y₁
  · -- the notice reaches the year already, so that the first update does nothing
    have hu := update_of_current h hcur
    have hmax : notice.lastYear = max notice.lastYear y₁ := by omega
    rw [hu, Edit.unchanged, hu]
    exact ⟨⟨notice, line, line, by rw [h], rfl, rfl, rfl, rfl, rfl, hmax, rfl, hget, hget, rfl⟩,
      rfl, rfl, rfl⟩
  · obtain ⟨hfind, htake, hlater⟩ := hup y₁ (by omega) (by omega)
    rw [update_of_older h hcur]
    -- the line of the notice is the only one that has changed
    have hget' : (lines.modify notice.line fun line => replaceYears notice line y₁)[notice.line]?
        = some (replaceYears notice line y₁) := by
      rw [List.getElem?_modify_eq, hget]
      rfl
    have hsame : update (lines.modify notice.line fun line => replaceYears notice line y₁) language
        first y₁ = _ := update_of_current hfind (Or.inl (Int.le_refl y₁))
    have hmax : y₁ = max notice.lastYear y₁ := by omega
    refine ⟨⟨reaching notice line y₁, line, replaceYears notice line y₁, by rw [hfind, h], rfl, rfl,
      rfl, rfl, rfl, hmax, rfl, hget, hget', congrArg byteLength htake⟩, by rw [hsame]; rfl,
      by rw [hsame]; rfl, ?_⟩
    by_cases hlt : y₁ < y₂
    · exact update_later h hget hfind (hlater y₂) (by omega) (by omega) hlt
    · obtain rfl : y₁ = y₂ := by omega
      rw [hsame, update_of_older h hcur]
      rfl

/-- A notice behind a malformed one, updated to one year and then to the next. -/
theorem update_update_behind_malformed :
    (find Language.python ["# Copyright 2021-2019 Bob", "# Copyright 2019 Ada"]).notice
        = some ⟨"Ada", 2019, none, 1, ⟨1, 2⟩, Marker.line, ⟨12, 16⟩⟩
      ∧ (update (update ["# Copyright 2021-2019 Bob", "# Copyright 2019 Ada"] Language.python 2018
            2024).lines Language.python 2018 2024).changed = false
      ∧ (update (update ["# Copyright 2021-2019 Bob", "# Copyright 2019 Ada"] Language.python 2018
            2024).lines Language.python 2018 2026).lines
          = (update ["# Copyright 2021-2019 Bob", "# Copyright 2019 Ada"] Language.python 2018
            2026).lines := by
  have hn : (find Language.python ["# Copyright 2021-2019 Bob", "# Copyright 2019 Ada"]).notice
      = some ⟨"Ada", 2019, none, 1, ⟨1, 2⟩, Marker.line, ⟨12, 16⟩⟩ := by decide +kernel
  obtain ⟨-, hchanged, -, hlines⟩ := update_update (by decide) hn (by decide)
    (by decide : (2018 : Int) < 2024) (by decide : (2024 : Int) ≤ 2026) (by decide)
  exact ⟨hn, hchanged, hlines⟩

end Notice

end GitHooks
