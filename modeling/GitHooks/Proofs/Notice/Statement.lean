/-
**What a comment text states, and what it goes on stating.**

Whether a text begins with signifiers, and where they end, is told by its characters up to the
first digit: no signifier has a digit, and none looks further than one character past its end.
Together with the same fact about year fields this says how the years of a statement can be
replaced: the text in front of them, up to a stem that ends where the last year begins, is kept,
and a new last year is put behind the stem.  The statement then has the same holder and the same
first year.

Main definitions:

* `Notice.IsYears` — what the characters of a year field look like;
* `Notice.Statement.ofField?` — the statement that a year field makes.

Main results:

* `Notice.afterSignifiers?_append_digit` — signifiers are found by what stands before a digit;
* `Notice.statement?_replace` — a statement with another text behind its first year;
* `Notice.statement?_redate` — a statement with another last year.
-/

import GitHooks.Proofs.Notice.Signed
import GitHooks.Proofs.Notice.Years

set_option relaxedAutoImplicit false
set_option autoImplicit false

namespace GitHooks

namespace Notice

open Text

/-! ### The text of a year field -/

/-- The characters of a year field: digits, hyphens and white space. -/
def isYearChar (c : Char) : Bool := c.isDigit || c == '-' || isSpace c

/-- The form of a year field: characters of that kind, with a digit at both ends. -/
def IsYears (t : Text) : Prop :=
  ∃ first middle last, t = first :: (middle ++ [last]) ∧ first.isDigit = true
    ∧ last.isDigit = true ∧ middle.all isYearChar = true

theorem all_isYearChar_of_isDigit {t : Text} (h : t.all Char.isDigit = true) :
    t.all isYearChar = true :=
  List.all_eq_true.2 fun c hc => by simp [isYearChar, List.all_eq_true.1 h c hc]

theorem all_isYearChar_of_isBlank {t : Text} (h : isBlank t = true) : t.all isYearChar = true :=
  List.all_eq_true.2 fun c hc => by simp [isYearChar, List.all_eq_true.1 h c hc]

theorem isYears_range {first separator second : Text} (hf : IsYear first)
    (hm : separator.all isYearChar = true) (hs : IsYear second) :
    IsYears (first ++ separator ++ second) := by
  obtain ⟨d, front, rfl, hd⟩ := hf.exists_cons
  obtain ⟨back, e, rfl, he⟩ := hs.exists_concat
  refine ⟨d, front ++ separator ++ back, e, by simp, hd, he, ?_⟩
  have hfront : front.all Char.isDigit = true := by simpa [hd] using hf.2
  have hback : back.all Char.isDigit = true := by simpa [he] using hs.2
  rw [List.all_append, List.all_append, all_isYearChar_of_isDigit hfront, hm,
    all_isYearChar_of_isDigit hback]
  rfl

theorem IsSeparator.all_isYearChar {separator : Text} (h : IsSeparator separator) :
    separator.all isYearChar = true := by
  obtain ⟨front, back, hf, hb, rfl⟩ := h
  rw [List.all_append, List.all_cons, all_isYearChar_of_isBlank hf, all_isYearChar_of_isBlank hb]
  rfl

theorem IsYear.isYears {t : Text} (h : IsYear t) : IsYears t := by
  obtain ⟨hl, hd⟩ := h
  match t, hl with
  | [a, b, c, d], _ =>
      simp only [List.all_cons, List.all_nil, Bool.and_true, Bool.and_eq_true] at hd
      obtain ⟨ha, hb, hc, hd⟩ := hd
      exact ⟨a, [b, c], d, rfl, ha, hd, all_isYearChar_of_isDigit (by simp [hb, hc])⟩

/-! ### Signifiers -/

section Signifiers

variable {c : Char}

/-- A beginning without digits, read in lower case, is found before a digit or not at all. -/
theorem lowered_take_iff (word : Text) (hw : isDigitFree word = true) (hc : c.isDigit = true)
    (t u : Text) : ((t ++ c :: u).take word.length).map Char.toLower = word
      ↔ (t.take word.length).map Char.toLower = word := by
  by_cases hl : word.length ≤ t.length
  · rw [List.take_append_of_le_length hl]
  · constructor
    · intro h
      refine absurd ?_ (not_mem_of_isDigitFree hw hc)
      have hm : c ∈ (t ++ c :: u).take word.length := by
        rw [List.take_append, List.mem_append]
        right
        obtain ⟨k, hk⟩ : ∃ k, word.length - t.length = k + 1 :=
          ⟨word.length - t.length - 1, by omega⟩
        rw [hk]
        exact List.mem_cons_self ..
      have := List.mem_map_of_mem (f := Char.toLower) hm
      rwa [h, toLower_of_isDigit hc] at this
    · intro h
      have := congrArg List.length h
      simp only [List.length_map, List.length_take] at this
      omega

theorem le_length_of_lowered_take {word t : Text} {n : Nat} (hn : word.length = n)
    (h : (t.take n).map Char.toLower = word) : n ≤ t.length := by
  have := congrArg List.length h
  simp only [List.length_map, List.length_take] at this
  omega

theorem startsInWord_drop_append {n : Nat} {t : Text} (h : n ≤ t.length) (c : Char) (u : Text) :
    startsInWord ((t ++ c :: u).drop n) = startsInWord ((t ++ [c]).drop n) := by
  rw [List.drop_append_of_le_length h, List.drop_append_of_le_length h]
  cases t.drop n <;> rfl

/-- The signifier that a text begins with is told by its characters up to a digit. -/
theorem signifierLength_append_digit (hc : c.isDigit = true) (t u : Text) :
    signifierLength (t ++ c :: u) = signifierLength (t ++ [c]) := by
  have h₁ : ∀ v, ((t ++ c :: v).take 9).map Char.toLower = "copyright"
      ↔ (t.take 9).map Char.toLower = "copyright" :=
    lowered_take_iff "copyright" (by decide) hc t
  have h₂ : ∀ v, ((t ++ c :: v).take 3).map Char.toLower = "(c)"
      ↔ (t.take 3).map Char.toLower = "(c)" := lowered_take_iff "(c)" (by decide) hc t
  have h₃ : ∀ v, startsWith (t ++ c :: v) "©" = startsWith t "©" := fun v => by
    rw [Bool.eq_iff_iff, startsWith_iff, startsWith_iff,
      prefix_append_cons_iff (not_mem_of_isDigitFree (by decide) hc)]
  have h₄ : ∀ v, ((t.take 9).map Char.toLower = "copyright"
        ∧ startsInWord ((t ++ c :: v).drop 9) = false)
      ↔ ((t.take 9).map Char.toLower = "copyright"
        ∧ startsInWord ((t ++ [c]).drop 9) = false) := fun v => by
    refine and_congr_right fun h => ?_
    rw [startsInWord_drop_append (le_length_of_lowered_take (by decide) h)]
  rw [signifierLength, signifierLength]
  simp only [h₁, h₂, h₃, h₄]

theorem signifierLength_append_digit_le (hc : c.isDigit = true) (t u : Text) :
    signifierLength (t ++ c :: u) ≤ t.length := by
  unfold signifierLength
  split
  · next h =>
    exact le_length_of_lowered_take (by decide)
      ((lowered_take_iff "copyright" (by decide) hc t u).1 h.1)
  · split
    · next h =>
      exact le_length_of_lowered_take (by decide) ((lowered_take_iff "(c)" (by decide) hc t u).1 h)
    · split
      · next h =>
        rw [startsWith_iff, prefix_append_cons_iff (not_mem_of_isDigitFree (by decide) hc)] at h
        exact h.length_le
      · exact Nat.zero_le _

/-- Passing over signifiers stops before the first digit, wherever it is told to stop. -/
theorem skipSignifiers_append_digit (hc : c.isDigit = true) (t : Text) (passing : Nat)
    (hp : passing ≤ t.length) :
    ∃ front, ∀ u, skipSignifiers passing (t ++ c :: u) = front ++ c :: u := by
  induction t generalizing passing with
  | nil =>
      obtain rfl : passing = 0 := by simpa using hp
      refine ⟨[], fun u => ?_⟩
      have h := signifierLength_append_digit_le hc [] u
      rw [List.nil_append] at h ⊢
      rw [skipSignifiers, isSpace_of_isDigit hc, if_neg Bool.false_ne_true, Nat.le_zero.1 h]
  | cons d t ih =>
      cases passing with
      | succ passing =>
          obtain ⟨front, hf⟩ := ih passing (by simpa using hp)
          exact ⟨front, fun u => hf u⟩
      | zero =>
          cases hd : isSpace d with
          | true =>
              obtain ⟨front, hf⟩ := ih 0 (Nat.zero_le _)
              exact ⟨front, fun u => by rw [List.cons_append, skipSignifiers, hd, if_pos rfl, hf]⟩
          | false =>
              have hlength : ∀ u, signifierLength (d :: (t ++ c :: u))
                  = signifierLength (d :: t ++ [c]) := signifierLength_append_digit hc (d :: t)
              have hle := signifierLength_append_digit_le hc (d :: t) []
              cases hl : signifierLength (d :: t ++ [c]) with
              | zero =>
                  refine ⟨d :: t, fun u => ?_⟩
                  rw [List.cons_append, skipSignifiers, hd, if_neg Bool.false_ne_true, hlength, hl]
              | succ length =>
                  obtain ⟨front, hf⟩ := ih length (by simp at hle hl; omega)
                  refine ⟨front, fun u => ?_⟩
                  rw [List.cons_append, skipSignifiers, hd, if_neg Bool.false_ne_true, hlength, hl]
                  exact hf u

/-- **Signifiers are found by what stands before a digit.** -/
theorem afterSignifiers?_append_digit (hc : c.isDigit = true) (t : Text) :
    (∀ u, afterSignifiers? (t ++ c :: u) = none)
      ∨ ∃ front, ∀ u, afterSignifiers? (t ++ c :: u) = some (front ++ c :: u) := by
  obtain ⟨front, hf⟩ := skipSignifiers_append_digit hc t 0 (Nat.zero_le _)
  have hs : ∀ u, signifierLength (trimStart (t ++ c :: u))
      = signifierLength (trimStart t ++ [c]) := fun u => by
    rw [trimStart_append_cons (isSpace_of_isDigit hc), signifierLength_append_digit hc]
  by_cases h : signifierLength (trimStart t ++ [c]) = 0
  · exact Or.inl fun u => by rw [afterSignifiers?, hs, if_pos h]
  · exact Or.inr ⟨front, fun u => by rw [afterSignifiers?, hs, if_neg h, hf]⟩

/-- Something stands in front of what stands behind the signifiers: the signifiers. -/
theorem exists_of_afterSignifiers? {t rest : Text} (h : afterSignifiers? t = some rest) :
    ∃ lead, lead ≠ [] ∧ t = lead ++ rest := by
  obtain ⟨lead, ht, hlead⟩ := afterSignifiers?_eq_some_iff.1 h
  exact ⟨lead, hlead.ne_nil, ht⟩

end Signifiers

/-! ### Statements -/

/-- The statement that a year field makes, `offset` characters into a text. -/
def Statement.ofField? (offset : Nat) (field : YearField) : Option Statement :=
  if (holderOf field.before field.after).isEmpty then none
  else
    some
      { holder := holderOf field.before field.after
        startYear := digitsValue field.first
        endYear := field.second.map fun second => digitsValue second.2
        years := ⟨offset + field.before.length,
          offset + field.before.length + field.text.length⟩ }

theorem statement?_eq_bind (t : Text) :
    statement? t = (afterSignifiers? t).bind fun rest =>
      (yearField? rest).bind (Statement.ofField? (t.length - rest.length)) := rfl

/-- **A statement is made by its first year field.**  It stands behind signifiers, and any text
that does not lengthen its first year can stand behind that year. -/
theorem statement?_replace {t : Text} {statement : Statement}
    (h : statement? t = some statement) :
    ∃ lead before first behind, t = lead ++ before ++ first ++ behind ∧ lead ≠ []
      ∧ IsYear first ∧ startsInWord behind = false
      ∧ Statement.ofField? lead.length (YearField.around before first behind) = some statement
      ∧ ∀ other, startsInWord other = false →
        statement? (lead ++ before ++ first ++ other)
          = Statement.ofField? lead.length (YearField.around before first other) := by
  rw [statement?_eq_bind] at h
  obtain ⟨rest, ha, hb⟩ := Option.bind_eq_some_iff.1 h
  obtain ⟨field, hf, hst⟩ := Option.bind_eq_some_iff.1 hb
  obtain ⟨lead, hl, rfl⟩ := exists_of_afterSignifiers? ha
  obtain ⟨behind, hrest, hy, hw, he, hr⟩ := yearFieldFrom?_replace hf
  obtain ⟨d, digits, hd, hdigit⟩ := hy.exists_cons
  -- the signifiers are found by what stands before the first digit of the year
  have hsig : ∀ u, afterSignifiers? (lead ++ field.before ++ d :: u)
      = some (field.before ++ d :: u) := by
    have ht : lead ++ rest = lead ++ field.before ++ d :: (digits ++ behind) := by simp [hrest, hd]
    rw [ht] at ha
    rcases afterSignifiers?_append_digit hdigit (lead ++ field.before) with hn | ⟨front, hfr⟩
    · rw [hn] at ha
      simp at ha
    · rw [hfr, hrest, hd] at ha
      obtain rfl : front = field.before := by simpa using ha
      exact hfr
  refine ⟨lead, field.before, field.first, behind, by simp [hrest], hl, hy, hw, ?_,
    fun other ho => ?_⟩
  · rw [← he, ← hst]
    simp
  · have hs := hsig (digits ++ other)
    have ht : lead ++ field.before ++ d :: (digits ++ other)
        = lead ++ field.before ++ field.first ++ other := by simp [hd]
    have hb : field.before ++ d :: (digits ++ other) = field.before ++ field.first ++ other := by
      simp [hd]
    rw [ht, hb] at hs
    rw [statement?_eq_bind, hs, Option.bind_some, yearField?, hr other ho, Option.bind_some]
    simp

/-- What stands in front of the last year of a range; behind a single year, what has to be put in
to make it a range. -/
def Statement.HasStem (statement : Statement) (years stem : Text) : Prop :=
  match statement.endYear with
  | none => IsYear years ∧ statement.startYear = digitsValue years ∧ stem = years ++ " - ".toList
  | some _ => ∃ last, IsYear last ∧ years = stem ++ last

/-- A range can be put behind the first year of a statement, whatever separates its years. -/
theorem statement?_range {lead before first separator year after : Text}
    (hr : ∀ other, startsInWord other = false →
      statement? (lead ++ before ++ first ++ other)
        = Statement.ofField? lead.length (YearField.around before first other))
    (hs : IsSeparator separator) (hy : IsYear year) (hw : startsInWord after = false)
    (hh : ¬ (holderOf before after).isEmpty = true) :
    statement? (lead ++ before ++ (first ++ separator ++ year) ++ after)
      = some ⟨holderOf before after, digitsValue first, some (digitsValue year),
          ⟨(lead ++ before).length,
            (lead ++ before).length + (first ++ separator ++ year).length⟩⟩ := by
  have hw' : startsInWord (separator ++ year ++ after) = false := by
    rw [List.append_assoc]
    exact startsInWord_of_isSeparator hs _
  have ht : lead ++ before ++ (first ++ separator ++ year) ++ after
      = lead ++ before ++ first ++ (separator ++ year ++ after) := by simp
  rw [ht, hr _ hw', YearField.around_range hs hy hw, Statement.ofField?, if_neg hh]
  simp [YearField.text]

/-- **A statement with another last year.**  The years are replaced from their stem on; holder and
first year are what they were. -/
theorem statement?_redate {t : Text} {statement : Statement} (h : statement? t = some statement) :
    ∃ front years after stem, t = front ++ years ++ after ∧ front ≠ [] ∧ IsYears years
      ∧ statement.years = ⟨front.length, front.length + years.length⟩
      ∧ statement.HasStem years stem
      ∧ ∀ year, IsYear year → IsYears (stem ++ year)
        ∧ statement? (front ++ (stem ++ year) ++ after)
          = some { statement with
              endYear := some (digitsValue year)
              years := ⟨front.length, front.length + (stem ++ year).length⟩ } := by
  obtain ⟨lead, before, first, behind, rfl, hl, hy, hw, hst, hr⟩ := statement?_replace h
  have hfront : lead ++ before ≠ [] := by simp [hl]
  have hrange : ∀ {separator after : Text}, IsSeparator separator → startsInWord after = false →
      ¬ (holderOf before after).isEmpty = true → ∀ year, IsYear year →
      IsYears (first ++ separator ++ year)
        ∧ statement? (lead ++ before ++ (first ++ separator ++ year) ++ after)
          = some ⟨holderOf before after, digitsValue first, some (digitsValue year),
              ⟨(lead ++ before).length,
                (lead ++ before).length + (first ++ separator ++ year).length⟩⟩ :=
    fun hs hwa hh year hyear =>
      ⟨isYears_range hy hs.all_isYearChar hyear, statement?_range hr hs hyear hwa hh⟩
  cases hb : rangeAt? behind with
  | none =>
      have hf : YearField.around before first behind = ⟨before, first, none, behind⟩ := by
        rw [YearField.around, hb]
      rw [hf, Statement.ofField?] at hst
      split at hst
      · simp at hst
      · next hh =>
        obtain rfl := Option.some.inj hst
        exact ⟨lead ++ before, first, behind, first ++ " - ".toList, rfl, hfront, hy.isYears,
          by simp [YearField.text], ⟨hy, rfl, rfl⟩, hrange isSeparator_plain hw hh⟩
  | some range =>
      obtain ⟨separator, second, after⟩ := range
      obtain ⟨rfl, hs, hsecond, hwa⟩ := rangeAt?_eq_some_iff.1 hb
      rw [YearField.around_range hs hsecond hwa, Statement.ofField?] at hst
      split at hst
      · simp at hst
      · next hh =>
        obtain rfl := Option.some.inj hst
        exact ⟨lead ++ before, first ++ separator ++ second, after, first ++ separator, by simp,
          hfront, isYears_range hy hs.all_isYearChar hsecond, by simp [YearField.text],
          ⟨second, hsecond, rfl⟩, hrange hs hwa hh⟩

end Notice

end GitHooks
