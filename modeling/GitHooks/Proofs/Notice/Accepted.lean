/-
**The grammar of notices.**

A comment text is a notice when white space and signifiers are followed by a text that has a year
and names a holder.  The grammar puts the parts together: the signifiers are all that there are, the
year is the first word of four digits, the second year of a range is taken where there is one, and
the holder is what stands before and after the years.  Years that run backwards are remarked on, but
only where there is a holder.

The reader of comment texts answers what the grammar says, on every text, and says nothing else.  It
does so on characters and, with every place counted in bytes, on the bytes of the text.

Main definitions:

* `Notice.IsHolder` — the holder between what stands before and after the years;
* `Notice.States`, `Notice.IsSilent` — what a text states by the grammar, and that it states
  nothing;
* `Notice.Reads` — what is answered for a comment text by the grammar.

Main results:

* `Notice.statement?_eq_some_iff`, `Notice.statement?_eq_none_iff` — statements by the grammar;
* `Notice.readText_iff` — the reader answers what the grammar says, on characters and on bytes.
-/

import GitHooks.Proofs.Notice.FirstYear
import GitHooks.Proofs.Notice.InBytes
import GitHooks.Proofs.Notice.Signed
import GitHooks.Proofs.Text.Core

set_option relaxedAutoImplicit false
set_option autoImplicit false

namespace GitHooks

namespace Notice

open Text

variable {size : Text → Nat} {t lead rest before after holder : Text} {field : YearField}
  {statement : Statement} {segment : Header.Segment} {offset index : Nat}
  {result : Except Malformed (Option Notice)}

/-! ### The holder -/

/-- The holder that the texts before and after the years name: both trimmed, joined by a space where
neither is empty, and without commas and white space at the ends. -/
def IsHolder (before after holder : Text) : Prop :=
  ∃ left right, IsCore isSpace before left ∧ IsCore isSpace after right
    ∧ IsCore isHolderEdge (joinWith " " ([left, right].filter fun part => !part.isEmpty)) holder

theorem isHolder_iff : IsHolder before after holder ↔ holder = holderOf before after := by
  constructor
  · rintro ⟨left, right, hleft, hright, hcore⟩
    rw [isCore_iff_trim] at hleft hright
    rw [isCore_iff_stripBoth, hleft, hright] at hcore
    exact hcore
  · rintro rfl
    exact ⟨trim before, trim after, isCore_trim before, isCore_trim after, isCore_stripBoth _ _⟩

/-! ### Statements -/

/-- The statement that a year field makes behind a lead, with its places measured by `size`. -/
def statementOf (size : Text → Nat) (lead : Text) (field : YearField) (holder : Text) : Statement :=
  { holder
    startYear := digitsValue field.first
    endYear := field.second.map fun second => digitsValue second.2
    years := ⟨size (lead ++ field.before), size (lead ++ field.before ++ field.text)⟩ }

/-- What a text states by the grammar. -/
inductive States (size : Text → Nat) : Text → Statement → Prop
  | intro {lead rest holder : Text} {field : YearField} (signed : IsLead lead rest)
      (dated : IsField rest field) (held : IsHolder field.before field.after holder)
      (named : holder ≠ []) : States size (lead ++ rest) (statementOf size lead field holder)

/-- The texts that state nothing by the grammar: a part of a notice is missing. -/
inductive IsSilent : Text → Prop
  | unsigned {t : Text} (unsigned : ∀ blank behind, t = blank ++ behind → isBlank blank = true →
      ¬ HasSignifier behind) : IsSilent t
  | undated {lead rest : Text} (signed : IsLead lead rest) (undated : NoYear rest) :
      IsSilent (lead ++ rest)
  | unheld {lead rest : Text} {field : YearField} (signed : IsLead lead rest)
      (dated : IsField rest field) (unheld : IsHolder field.before field.after []) :
      IsSilent (lead ++ rest)

/-- Behind its signifiers a text states what its year field makes. -/
theorem statement?_of_isLead (h : IsLead lead rest) : statement? (lead ++ rest)
    = (yearField? rest).bind (Statement.ofField? lead.length) := by
  rw [statement?_eq_bind, afterSignifiers?_eq_some_iff.2 ⟨lead, rfl, h⟩, Option.bind_some,
    List.length_append, Nat.add_sub_cancel]

theorem ofField?_of_ne_nil (h : holderOf field.before field.after ≠ []) (lead : Text) :
    Statement.ofField? lead.length field
      = some (statementOf List.length lead field (holderOf field.before field.after)) := by
  rw [Statement.ofField?, if_neg (by simpa using h), statementOf]
  simp only [List.length_append]

theorem ofField?_of_eq_nil (h : holderOf field.before field.after = []) (offset : Nat) :
    Statement.ofField? offset field = none := by
  rw [Statement.ofField?, h]
  rfl

/-- **A text states what the grammar says.** -/
theorem statement?_eq_some_iff :
    statement? t = some statement ↔ States List.length t statement := by
  constructor
  · intro h
    obtain ⟨rest, hrest, -⟩ := Option.bind_eq_some_iff.1 h
    obtain ⟨lead, rfl, hlead⟩ := afterSignifiers?_eq_some_iff.1 hrest
    rw [statement?_of_isLead hlead] at h
    obtain ⟨field, hfield, hst⟩ := Option.bind_eq_some_iff.1 h
    by_cases hholder : holderOf field.before field.after = []
    · rw [ofField?_of_eq_nil hholder] at hst
      cases hst
    · rw [ofField?_of_ne_nil hholder] at hst
      obtain rfl := Option.some.inj hst
      exact .intro hlead (yearField?_eq_some_iff.1 hfield) (isHolder_iff.2 rfl) hholder
  · rintro ⟨hlead, hfield, hholder, hnamed⟩
    obtain rfl := isHolder_iff.1 hholder
    rw [statement?_of_isLead hlead, yearField?_eq_some_iff.2 hfield, Option.bind_some,
      ofField?_of_ne_nil hnamed]

/-- **A text states nothing** exactly where the grammar misses a part. -/
theorem statement?_eq_none_iff : statement? t = none ↔ IsSilent t := by
  constructor
  · intro h
    cases hrest : afterSignifiers? t with
    | none => exact .unsigned (afterSignifiers?_eq_none_iff.1 hrest)
    | some rest =>
        obtain ⟨lead, rfl, hlead⟩ := afterSignifiers?_eq_some_iff.1 hrest
        rw [statement?_of_isLead hlead] at h
        cases hfield : yearField? rest with
        | none => exact .undated hlead (yearField?_eq_none_iff.1 hfield)
        | some field =>
            by_cases hholder : holderOf field.before field.after = []
            · exact .unheld hlead (yearField?_eq_some_iff.1 hfield) (isHolder_iff.2 hholder.symm)
            · rw [hfield, Option.bind_some, ofField?_of_ne_nil hholder] at h
              cases h
  · rintro (hnone | ⟨hlead, hnone⟩ | ⟨hlead, hfield, hholder⟩)
    · rw [statement?_eq_bind, afterSignifiers?_eq_none_iff.2 hnone]
      rfl
    · rw [statement?_of_isLead hlead, yearField?_eq_none_iff.2 hnone]
      rfl
    · rw [statement?_of_isLead hlead, yearField?_eq_some_iff.2 hfield, Option.bind_some,
        ofField?_of_eq_nil (isHolder_iff.1 hholder).symm]

/-! ### Statements in bytes -/

/-- A statement that is counted in bytes is the same statement with its places measured so. -/
theorem statementOf_inBytes (h : IsField rest field) (lead holder : Text) :
    (statementOf List.length lead field holder).inBytes (lead ++ rest)
      = statementOf byteLength lead field holder := by
  have hspan := Span.inBytes_append (lead ++ field.before) field.text field.after
  have hparts : lead ++ field.before ++ field.text ++ field.after = lead ++ rest := by
    rw [← text_yearField? (yearField?_eq_some_iff.2 h)]
    simp only [List.append_assoc]
  rw [hparts, ← List.length_append] at hspan
  rw [statementOf, Statement.inBytes, hspan]
  rfl

theorem states_byteLength_iff : States byteLength t statement ↔
    ∃ stated, States List.length t stated ∧ stated.inBytes t = statement := by
  constructor
  · rintro ⟨hlead, hfield, hholder, hnamed⟩
    exact ⟨_, .intro hlead hfield hholder hnamed, statementOf_inBytes hfield _ _⟩
  · rintro ⟨stated, ⟨hlead, hfield, hholder, hnamed⟩, rfl⟩
    rw [statementOf_inBytes hfield]
    exact .intro hlead hfield hholder hnamed

/-! ### Readings -/

/-- What is answered for a comment text by the grammar, where the text begins at `offset` in the
line with the given index: nothing, a remark on years that run backwards, or a notice. -/
inductive Reads (size : Text → Nat) (segment : Header.Segment) (offset index : Nat) (t : Text) :
    Except Malformed (Option Notice) → Prop
  | silent (silent : IsSilent t) : Reads size segment offset index t (Except.ok none)
  | backwards {statement : Statement} {endYear : Nat} (states : States size t statement)
      (isRange : statement.endYear = some endYear) (lt : endYear < statement.startYear) :
      Reads size segment offset index t (Except.error ⟨index + 1, statement.startYear, endYear⟩)
  | notice {statement : Statement} (states : States size t statement)
      (inOrder : ∀ endYear ∈ statement.endYear, statement.startYear ≤ endYear) :
      Reads size segment offset index t
        (Except.ok (some (statement.toNotice segment offset index)))

/-- A statement is answered with as the grammar says. -/
theorem reads_iff {stated : Option Statement} (hnone : stated = none ↔ IsSilent t)
    (hsome : ∀ statement, stated = some statement ↔ States size t statement) :
    stated.elim (Except.ok none) (InBytes.reading segment offset index) = result ↔
      Reads size segment offset index t result := by
  constructor
  · rintro rfl
    cases hst : stated with
    | none => exact .silent (hnone.1 hst)
    | some statement =>
        have hstates := (hsome statement).1 hst
        rw [Option.elim_some, InBytes.reading]
        split
        · next endYear hrange =>
          split
          · next hlt => exact .backwards hstates hrange hlt
          · next hle =>
            refine .notice hstates fun year hyear => ?_
            obtain rfl := Option.some.inj (hrange.symm.trans hyear)
            exact Nat.le_of_not_lt hle
        · next hsingle =>
          refine .notice hstates fun year hyear => ?_
          rw [hsingle] at hyear
          cases hyear
  · rintro (hsilent | ⟨hstates, hrange, hlt⟩ | ⟨hstates, horder⟩)
    · rw [hnone.2 hsilent, Option.elim_none]
    · rw [(hsome _).2 hstates, Option.elim_some, InBytes.reading, hrange]
      exact if_pos hlt
    · rw [(hsome _).2 hstates, Option.elim_some, InBytes.reading]
      split
      · next endYear hrange => rw [if_neg (Nat.not_lt.2 (horder endYear hrange))]
      · rfl

theorem readText_eq_elim (segment : Header.Segment) (offset index : Nat) (t : Text) :
    readText segment offset index t
      = (statement? t).elim (Except.ok none) (InBytes.reading segment offset index) := by
  rw [readText]
  cases statement? t with
  | none => rfl
  | some statement => rfl

theorem inBytes_readText_eq_elim (segment : Header.Segment) (offset index : Nat) (t : Text) :
    InBytes.readText segment offset index t
      = Except.ok (((statement? t).map (Statement.inBytes t)).elim (Except.ok none)
        (InBytes.reading segment offset index)) := by
  rw [InBytes.readText, InBytes.statement_eq]
  cases statement? t with
  | none => rfl
  | some statement => rfl

/-- **Exactly the texts of the grammar are notices.**  For every comment text the reader answers
what the grammar says: with nothing where no signifier, no year or no holder is there, with a remark
on the line where the second year is before the first, and else with the notice of the years, the
holder and the place that the grammar tells.  In bytes all cuts are possible, and the answer is what
the grammar says with its places counted in bytes. -/
theorem readText_iff (segment : Header.Segment) (offset index : Nat) (t : Text)
    (result : Except Malformed (Option Notice)) :
    (readText segment offset index t = result ↔ Reads List.length segment offset index t result)
      ∧ (InBytes.readText segment offset index t = Except.ok result ↔
        Reads byteLength segment offset index t result) := by
  constructor
  · rw [readText_eq_elim]
    exact reads_iff statement?_eq_none_iff fun _ => statement?_eq_some_iff
  · rw [inBytes_readText_eq_elim, Except.ok.injEq]
    refine reads_iff (Option.map_eq_none_iff.trans statement?_eq_none_iff) fun statement => ?_
    rw [Option.map_eq_some_iff, states_byteLength_iff]
    simp only [statement?_eq_some_iff]

/-- A number of five digits is no year, and the holder stands on both sides of the range. -/
example : readText ⟨⟨3, 5⟩, Marker.block⟩ 2 4 " Copyright (C)Ada 12345, 2019- 2021 Byron,"
    = Except.ok
      (some ⟨"Ada 12345, Byron", 2019, some 2021, 4, ⟨3, 5⟩, Marker.block, ⟨27, 37⟩⟩) := by
  decide +kernel

end Notice

end GitHooks
