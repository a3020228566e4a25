/-
**The first year of a text.**

The year of a notice is the first word of its text that is four digits: a word of five digits, or
digits behind a letter, are passed over.  What stands behind it makes it a range or not.  The reader
of year fields tries at every character and remembers only whether it stands within a word; here it
is shown, by going from word to word, to find the first such word and no other.

Main definitions:

* `Notice.NoYear`, `Notice.IsFirstYear` — no word of a text is a year, and the first that is one;
* `Notice.IsField` — the first year with the second year of a range, where there is one.

Main results:

* `Notice.yearField?_cons`, `Notice.yearField?_append` — the reader behind a gap, and behind a word;
* `Notice.yearField?_eq_some_iff`, `Notice.yearField?_eq_none_iff` — what the reader answers.
-/

import GitHooks.Proofs.Notice.Years
import GitHooks.Proofs.Text.Words

set_option relaxedAutoImplicit false
set_option autoImplicit false

namespace GitHooks

namespace Notice

open Text

/-! ### The grammar -/

/-- Whether no word of a text is a year. -/
def NoYear (t : Text) : Prop := ∀ before word after, IsWordIn t before word after → ¬ IsYear word

/-- The first word of a text that is a year, between the texts before and behind it. -/
structure IsFirstYear (t before year behind : Text) : Prop where
  isWordIn : IsWordIn t before year behind
  isYear : IsYear year
  /-- No word that is a year stands further to the left. -/
  first : ∀ front other rest, IsWordIn t front other rest → IsYear other →
    before.length ≤ front.length

/-- The year field of a text: its first year, and the second year of a range where what stands
behind the first goes on as one. -/
inductive IsField (t : Text) : YearField → Prop
  | range {before first separator second after : Text}
      (firstYear : IsFirstYear t before first (separator ++ second ++ after))
      (separates : IsSeparator separator) (isYear : IsYear second)
      (ends : startsInWord after = false) :
      IsField t ⟨before, first, some (separator, second), after⟩
  | single {before first behind : Text} (firstYear : IsFirstYear t before first behind)
      (alone : ∀ separator second after, behind = separator ++ second ++ after →
        IsSeparator separator → IsYear second → startsInWord after = true) :
      IsField t ⟨before, first, none, behind⟩

variable {lead t u before year behind : Text} {c : Char} {field : YearField}

/-- The text behind the first year decides whether there is a second. -/
theorem isField_iff : IsField t field ↔ ∃ behind, IsFirstYear t field.before field.first behind
    ∧ field = YearField.around field.before field.first behind := by
  constructor
  · rintro (⟨firstYear, separates, isYear, ends⟩ | ⟨firstYear, alone⟩)
    · exact ⟨_, firstYear, (YearField.around_range separates isYear ends _ _).symm⟩
    · refine ⟨_, firstYear, ?_⟩
      rw [YearField.around]
      split
      · next separator second after hrange =>
        obtain ⟨hparts, hseparator, hsecond, hends⟩ := rangeAt?_eq_some_iff.1 hrange
        rw [alone _ _ _ hparts hseparator hsecond] at hends
        cases hends
      · rfl
  · rintro ⟨behind, hfirst, haround⟩
    rw [haround, YearField.around]
    cases hrange : rangeAt? behind with
    | none =>
        refine .single hfirst fun separator second after hparts hseparator hsecond => ?_
        refine Bool.not_eq_false _ |>.mp fun hends => ?_
        rw [rangeAt?_eq_some_iff.2 ⟨hparts, hseparator, hsecond, hends⟩] at hrange
        cases hrange
    | some range =>
        obtain ⟨separator, second, after⟩ := range
        obtain ⟨rfl, hseparator, hsecond, hends⟩ := rangeAt?_eq_some_iff.1 hrange
        exact .range hfirst hseparator hsecond hends

/-! ### The reader, word by word -/

/-- A year is a run of word characters. -/
theorem IsYear.isRun (h : IsYear year) : IsRun year := by
  refine ⟨?_, fun c hc => ?_⟩
  · rintro rfl
    exact absurd h.1 (by decide)
  · have hdigit := List.all_eq_true.1 h.2 c hc
    have hlt : c.toNat < 128 := by
      have := (isDigit_iff.1 hdigit).2
      omega
    rw [isWord, if_pos hlt, Char.isAlphanum, hdigit, Bool.or_true, Bool.true_or]

/-- A text that begins with no word has no year at its beginning. -/
theorem fieldAt?_of_not_startsInWord (ht : startsInWord t = false) : fieldAt? t = none := by
  rw [fieldAt?_eq_map, Option.map_eq_none_iff, Option.eq_none_iff_forall_ne_some]
  rintro ⟨digits, after⟩ h
  obtain ⟨rfl, hdigits, -⟩ := yearAt?_eq_some_iff.1 h
  rw [startsInWord_append hdigits.isRun] at ht
  cases ht

/-- A word that is not a year is none at the beginning of a text either. -/
theorem fieldAt?_of_not_isYear (hu : IsRun u) (ht : startsInWord t = false) (hy : ¬ IsYear u) :
    fieldAt? (u ++ t) = none := by
  rw [fieldAt?_eq_map, Option.map_eq_none_iff, Option.eq_none_iff_forall_ne_some]
  rintro ⟨digits, after⟩ h
  obtain ⟨hparts, hdigits, hafter⟩ := yearAt?_eq_some_iff.1 h
  have hword : u = digits := by
    rw [← takeWhile_isWord hu ht, hparts, takeWhile_isWord hdigits.isRun hafter]
  exact hy (hword ▸ hdigits)

/-- A year field with a text put in front of the text before it. -/
def YearField.prepend (lead : Text) (field : YearField) : YearField :=
  { field with before := lead ++ field.before }

theorem YearField.prepend_around (lead before first behind : Text) :
    (around before first behind).prepend lead = around (lead ++ before) first behind := by
  unfold around
  split <;> rfl

/-- The reader behind a character that is part of no word. -/
theorem yearField?_cons (hc : isWord c = false) (t : Text) :
    yearField? (c :: t) = (yearField? t).map (YearField.prepend [c]) := by
  rw [yearField?, yearFieldFrom?_of_none (Or.inr (fieldAt?_of_not_startsInWord hc)), hc]
  rfl

/-- Within a word the reader goes on to its end. -/
theorem yearFieldFrom?_append (hu : ∀ c ∈ u, isWord c = true) (ht : startsInWord t = false) :
    yearFieldFrom? true (u ++ t) = (yearField? t).map (YearField.prepend u) := by
  induction u with
  | nil =>
      have hmap : (yearField? t).map (YearField.prepend []) = yearField? t := Option.map_id'
      rw [hmap, List.nil_append, yearField?]
      cases t with
      | nil => rfl
      | cons c t =>
          rw [yearFieldFrom?_of_none (Or.inl rfl),
            yearFieldFrom?_of_none (Or.inr (fieldAt?_of_not_startsInWord ht))]
  | cons c u ih =>
      rw [List.forall_mem_cons] at hu
      rw [List.cons_append, yearFieldFrom?_of_none (Or.inl rfl), hu.1, ih hu.2, Option.map_map]
      rfl

/-- The reader behind a word that is not a year. -/
theorem yearField?_append (hu : IsRun u) (ht : startsInWord t = false) (hy : ¬ IsYear u) :
    yearField? (u ++ t) = (yearField? t).map (YearField.prepend u) := by
  have hfield := fieldAt?_of_not_isYear hu ht hy
  obtain ⟨hne, hword⟩ := hu
  cases u with
  | nil => exact absurd rfl hne
  | cons c u =>
      rw [List.forall_mem_cons] at hword
      rw [List.cons_append] at hfield ⊢
      rw [yearField?, yearFieldFrom?_of_none (Or.inr hfield), hword.1,
        yearFieldFrom?_append hword.2 ht, Option.map_map]
      rfl

/-! ### The grammar, word by word -/

/-- Whether the years of a text all stand behind a given beginning of it. -/
def YearsBehind (lead t : Text) : Prop :=
  ∀ before year behind, IsYear year → (IsWordIn (lead ++ t) before year behind ↔
    ∃ front, before = lead ++ front ∧ IsWordIn t front year behind)

theorem yearsBehind_cons (hc : isWord c = false) (t : Text) : YearsBehind [c] t :=
  fun _ _ _ _ => isWordIn_cons hc

theorem yearsBehind_append (hu : IsRun u) (ht : startsInWord t = false) (hy : ¬ IsYear u) :
    YearsBehind u t := by
  intro before year behind hyear
  rw [isWordIn_append hu ht]
  refine or_iff_right ?_
  rintro ⟨-, rfl, -⟩
  exact hy hyear

theorem YearsBehind.noYear_iff (h : YearsBehind lead t) : NoYear (lead ++ t) ↔ NoYear t := by
  constructor
  · intro hnone front word after hword hyear
    exact hnone _ word after ((h _ _ _ hyear).2 ⟨front, rfl, hword⟩) hyear
  · intro hnone before word after hword hyear
    obtain ⟨front, -, hinner⟩ := (h _ _ _ hyear).1 hword
    exact hnone front word after hinner hyear

/-- The first year behind a beginning without years is the first year of what follows. -/
theorem YearsBehind.isFirstYear_iff (h : YearsBehind lead t) :
    IsFirstYear (lead ++ t) before year behind ↔
      ∃ front, before = lead ++ front ∧ IsFirstYear t front year behind := by
  constructor
  · rintro ⟨hword, hyear, hfirst⟩
    obtain ⟨front, rfl, hinner⟩ := (h _ _ _ hyear).1 hword
    refine ⟨front, rfl, hinner, hyear, fun front' other rest hother hy => ?_⟩
    have hle := hfirst _ _ _ ((h _ _ _ hy).2 ⟨front', rfl, hother⟩) hy
    rw [List.length_append, List.length_append] at hle
    exact Nat.le_of_add_le_add_left hle
  · rintro ⟨front, rfl, hword, hyear, hfirst⟩
    refine ⟨(h _ _ _ hyear).2 ⟨front, rfl, hword⟩, hyear, fun before' other rest hother hy => ?_⟩
    obtain ⟨front', rfl, hinner⟩ := (h _ _ _ hy).1 hother
    rw [List.length_append, List.length_append]
    exact Nat.add_le_add_left (hfirst _ _ _ hinner hy) _

/-- The year field behind a beginning without years is the field of what follows. -/
theorem YearsBehind.isField_iff (h : YearsBehind lead t) :
    IsField (lead ++ t) field ↔ ∃ inner, IsField t inner ∧ inner.prepend lead = field := by
  rw [Notice.isField_iff]
  constructor
  · rintro ⟨behind, hfirst, haround⟩
    obtain ⟨front, hbefore, hinner⟩ := h.isFirstYear_iff.1 hfirst
    refine ⟨YearField.around front field.first behind, Notice.isField_iff.2 ⟨behind, ?_⟩, ?_⟩
    · rw [YearField.before_around, YearField.first_around]
      exact ⟨hinner, rfl⟩
    · rw [YearField.prepend_around, ← hbefore, ← haround]
  · rintro ⟨inner, hinner, rfl⟩
    obtain ⟨behind, hfirst, haround⟩ := Notice.isField_iff.1 hinner
    refine ⟨behind, h.isFirstYear_iff.2 ⟨inner.before, rfl, hfirst⟩, ?_⟩
    have hprepend := congrArg (YearField.prepend lead) haround
    rwa [YearField.prepend_around] at hprepend

/-- A year that a text begins with is its first. -/
theorem isFirstYear_append (hu : IsYear u) (ht : startsInWord t = false) :
    IsFirstYear (u ++ t) before year behind ↔ before = [] ∧ year = u ∧ behind = t := by
  have hbegins : IsWordIn (u ++ t) [] u t := ⟨rfl, hu.isRun, rfl, ht⟩
  constructor
  · rintro ⟨hword, -, hfirst⟩
    rcases (isWordIn_append hu.isRun ht).1 hword with hparts | ⟨front, rfl, -⟩
    · exact hparts
    · have hle := hfirst _ _ _ hbegins hu
      have hlength := hu.1
      rw [List.length_append, List.length_nil] at hle
      omega
  · rintro ⟨rfl, rfl, rfl⟩
    exact ⟨hbegins, hu, fun _ _ _ _ _ => Nat.zero_le _⟩

theorem isField_append (hu : IsYear u) (ht : startsInWord t = false) :
    IsField (u ++ t) field ↔ YearField.around [] u t = field := by
  rw [isField_iff]
  constructor
  · rintro ⟨behind, hfirst, haround⟩
    obtain ⟨hbefore, hyear, rfl⟩ := (isFirstYear_append hu ht).1 hfirst
    rw [haround, hbefore, hyear]
  · rintro rfl
    rw [YearField.before_around, YearField.first_around]
    exact ⟨t, (isFirstYear_append hu ht).2 ⟨rfl, rfl, rfl⟩, rfl⟩

/-! ### What the reader answers -/

/-- **The reader finds the first year, and the range that it begins.** -/
theorem yearField?_eq_some_iff : yearField? t = some field ↔ IsField t field := by
  induction t using word_induction generalizing field with
  | nil =>
      refine iff_of_false (Option.some_ne_none field).symm fun h => ?_
      obtain ⟨behind, hfirst, -⟩ := isField_iff.1 h
      exact not_isWordIn_nil hfirst.isWordIn
  | gap c t hc ih =>
      rw [yearField?_cons hc, Option.map_eq_some_iff]
      simp only [ih]
      exact (yearsBehind_cons hc t).isField_iff.symm
  | word u t hu ht ih =>
      by_cases hy : IsYear u
      · rw [yearField?_of_isYear hy ht, Option.some_inj, isField_append hy ht]
      · rw [yearField?_append hu ht hy, Option.map_eq_some_iff,
          (yearsBehind_append hu ht hy).isField_iff]
        simp only [ih]

/-- **The reader answers with nothing** where no word is a year. -/
theorem yearField?_eq_none_iff : yearField? t = none ↔ NoYear t := by
  induction t using word_induction with
  | nil => exact iff_of_true rfl fun _ _ _ h => absurd h not_isWordIn_nil
  | gap c t hc ih =>
      rw [yearField?_cons hc, Option.map_eq_none_iff, ih]
      exact (yearsBehind_cons hc t).noYear_iff.symm
  | word u t hu ht ih =>
      by_cases hy : IsYear u
      · rw [yearField?_of_isYear hy ht]
        exact iff_of_false (Option.some_ne_none _) fun hnone =>
          hnone [] u t ⟨rfl, hu, rfl, ht⟩ hy
      · rw [yearField?_append hu ht hy, Option.map_eq_none_iff, ih,
          (yearsBehind_append hu ht hy).noYear_iff]

end Notice

end GitHooks
