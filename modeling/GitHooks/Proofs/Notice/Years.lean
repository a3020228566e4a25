/-
**Year fields.**

A year is a word of exactly four digits, and a range is two of them around a hyphen with white
space on either side of it.  The readers of years are put here as what they accept, in both
directions.  A year field is found by the characters up to the end of its first year alone: what
stands behind decides only whether it is a range.  So behind the first year of a field any text
that does not lengthen the word can be put in place of the one that was there.

Main definitions:

* `Notice.IsYear`, `Notice.IsSeparator` — what a year and what the middle of a range look like;
* `Notice.YearField.around` — the year field with a given first year between two texts.

Main results:

* `Notice.yearAt?_eq_some_iff`, `Notice.rangeAt?_eq_some_iff` — what the readers accept;
* `Notice.isYear_ofInt`, `Notice.ofNat_digitsValue` — years as written numbers;
* `Notice.yearFieldFrom?_replace` — a year field with another text behind its first year.
-/

import GitHooks.Notice.Grammar
import GitHooks.Proofs.Text.Decimal
import GitHooks.Proofs.Text.Trim

set_option relaxedAutoImplicit false
set_option autoImplicit false

namespace GitHooks

namespace Notice

open Text

/-! ### Years -/

/-- The form of a year. -/
def IsYear (t : Text) : Prop := t.length = 4 ∧ t.all Char.isDigit = true

theorem yearAt?_eq_some_iff {t digits after : Text} :
    yearAt? t = some (digits, after) ↔
      t = digits ++ after ∧ IsYear digits ∧ startsInWord after = false := by
  constructor
  · intro h
    have ht := append_of_yearAt? h
    simp only [yearAt?] at h
    split at h
    · next hd =>
      obtain ⟨rfl, rfl⟩ := Prod.mk.inj (Option.some.inj h)
      exact ⟨ht.symm, ⟨hd.1, hd.2.1⟩, hd.2.2⟩
    · simp at h
  · rintro ⟨rfl, hd, hw⟩
    have ht : (digits ++ after).take 4 = digits := by rw [← hd.1, List.take_left]
    have hr : (digits ++ after).drop 4 = after := by rw [← hd.1, List.drop_left]
    rw [yearAt?, ht, hr, if_pos ⟨hd.1, hd.2, hw⟩]

/-- Whether a text begins with a year is told by its first five characters. -/
theorem yearAt?_append_eq_none_iff {t : Text} (h : 5 ≤ t.length) (u v : Text) :
    yearAt? (t ++ u) = none ↔ yearAt? (t ++ v) = none := by
  have hw : startsInWord (t.drop 4 ++ u) = startsInWord (t.drop 4 ++ v) := by
    cases hd : t.drop 4 with
    | nil =>
        rw [List.drop_eq_nil_iff] at hd
        omega
    | cons c rest => rfl
  have h4 : 4 ≤ t.length := by omega
  simp only [yearAt?, List.take_append_of_le_length h4, List.drop_append_of_le_length h4, hw]
  split <;> simp

theorem IsYear.exists_cons {t : Text} (h : IsYear t) :
    ∃ c rest, t = c :: rest ∧ c.isDigit = true := by
  obtain ⟨hl, hd⟩ := h
  cases t with
  | nil => simp at hl
  | cons c rest => exact ⟨c, rest, rfl, by simp_all⟩

theorem IsYear.exists_concat {t : Text} (h : IsYear t) :
    ∃ rest c, t = rest ++ [c] ∧ c.isDigit = true := by
  obtain ⟨hl, hd⟩ := h
  rcases List.eq_nil_or_concat t with rfl | ⟨rest, c, rfl⟩
  · simp at hl
  · exact ⟨rest, c, List.concat_eq_append, by simp_all⟩

/-! ### Years as numbers -/

theorem isYear_ofNat {n : Nat} (h₁ : 1000 ≤ n) (h₂ : n ≤ 9999) : IsYear (ofNat n) := by
  refine ⟨?_, List.all_eq_true.2 fun c hc => isDigit_of_mem_ofNat hc⟩
  have h4 : (Nat.toDigits 10 n).length ≤ 4 :=
    (Nat.length_toDigits_le_iff (by decide) (by decide)).2 (by omega)
  have h3 : ¬ (Nat.toDigits 10 n).length ≤ 3 := by
    rw [Nat.length_toDigits_le_iff (by decide) (by decide)]
    omega
  change (Nat.toDigits 10 n).length = 4
  omega

theorem isYear_ofInt {y : Int} (h₁ : 1000 ≤ y) (h₂ : y ≤ 9999) : IsYear (ofInt y) := by
  obtain ⟨n, rfl⟩ := Int.eq_ofNat_of_zero_le (by omega : 0 ≤ y)
  exact isYear_ofNat (by omega) (by omega)

theorem digitsValue_ofInt {y : Int} (h : 0 ≤ y) : (digitsValue (ofInt y) : Int) = y := by
  obtain ⟨n, rfl⟩ := Int.eq_ofNat_of_zero_le h
  exact congrArg Int.ofNat (digitsValue_ofNat n)

/-- A year that does not begin with a zero is written as it was read. -/
theorem ofNat_digitsValue {t : Text} (h : IsYear t) (hv : 1000 ≤ digitsValue t) :
    ofNat (digitsValue t) = t := by
  obtain ⟨hl, hd⟩ := h
  obtain ⟨a, b, c, d, rfl⟩ : ∃ a b c d, t = [a, b, c, d] := by
    match t, hl with
    | [a, b, c, d], _ => exact ⟨a, b, c, d, rfl⟩
  simp only [List.all_cons, List.all_nil, Bool.and_true, Bool.and_eq_true] at hd
  obtain ⟨ha, hb, hc, hd⟩ := hd
  have h1 : digitsValue [a] = a.toNat - 48 := by simp [digitsValue]
  -- the value is built up from the front, and no number on the way is zero
  have h2 := digitsValue_concat [a] b
  have h3 := digitsValue_concat [a, b] c
  have h4 := digitsValue_concat [a, b, c] d
  simp only [List.cons_append, List.nil_append] at h2 h3 h4
  have hb' := isDigit_iff.1 hb
  have hc' := isDigit_iff.1 hc
  have hd' := isDigit_iff.1 hd
  have e4 := ofNat_digitsValue_concat (t := [a, b, c]) (by omega) hd
  have e3 := ofNat_digitsValue_concat (t := [a, b]) (by omega) hc
  have e2 := ofNat_digitsValue_concat (t := [a]) (by omega) hb
  simp only [List.cons_append, List.nil_append] at e2 e3 e4
  rw [e4, e3, e2, h1, ofNat_digit ha]
  rfl

/-! ### Ranges -/

/-- The form of what stands between the two years of a range. -/
def IsSeparator (t : Text) : Prop :=
  ∃ front back, isBlank front = true ∧ isBlank back = true ∧ t = front ++ '-' :: back

theorem isSeparator_plain : IsSeparator " - ".toList := ⟨[' '], [' '], rfl, rfl, rfl⟩

theorem startsInWord_of_isSeparator {separator : Text} (h : IsSeparator separator) (t : Text) :
    startsInWord (separator ++ t) = false := by
  obtain ⟨front, back, hf, -, rfl⟩ := h
  cases front with
  | nil => rfl
  | cons c front =>
      have hc : isSpace c = true := by simp_all [isBlank]
      exact isWord_of_isSpace hc

theorem takeWhile_isSpace_append {blank : Text} (hb : isBlank blank = true) {c : Char}
    (hc : isSpace c = false) (t : Text) : (blank ++ c :: t).takeWhile isSpace = blank := by
  rw [takeWhile_append_cons hc]
  rw [isBlank, List.all_eq_true] at hb
  have : (blank ++ []).takeWhile isSpace = blank ++ [].takeWhile isSpace :=
    List.takeWhile_append_of_pos hb
  simpa using this

theorem rangeAt?_of_dropWhile {t u : Text} (h : t.dropWhile isSpace = '-' :: u) :
    rangeAt? t = (yearAt? (u.dropWhile isSpace)).map fun year =>
      (t.takeWhile isSpace ++ '-' :: u.takeWhile isSpace, year.1, year.2) := by
  simp only [rangeAt?, h]

theorem rangeAt?_eq_some_iff {t separator digits after : Text} :
    rangeAt? t = some (separator, digits, after) ↔
      t = separator ++ digits ++ after ∧ IsSeparator separator ∧ IsYear digits
        ∧ startsInWord after = false := by
  constructor
  · intro h
    refine ⟨(append_of_rangeAt? h).symm, ?_⟩
    unfold rangeAt? at h
    split at h
    · next u hu =>
      obtain ⟨⟨d, a⟩, hy, he⟩ := Option.map_eq_some_iff.1 h
      obtain ⟨rfl, rfl, rfl⟩ : _ = separator ∧ d = digits ∧ a = after := by simpa using he
      obtain ⟨-, hd, hw⟩ := yearAt?_eq_some_iff.1 hy
      refine ⟨⟨t.takeWhile isSpace, u.takeWhile isSpace, ?_, ?_, rfl⟩, hd, hw⟩
      · exact List.all_takeWhile
      · exact List.all_takeWhile
    · simp at h
  · rintro ⟨rfl, ⟨front, back, hf, hb, rfl⟩, hd, hw⟩
    obtain ⟨c, rest, rfl, hc⟩ := hd.exists_cons
    have hc' := isSpace_of_isDigit hc
    -- white space stops at the hyphen, and behind it at the first digit
    have h₁ : (front ++ '-' :: back ++ c :: rest ++ after).dropWhile isSpace
        = '-' :: (back ++ c :: (rest ++ after)) := by
      have := trimStart_append_of_isBlank hf ('-' :: (back ++ c :: (rest ++ after)))
      rw [trimStart_cons (by decide)] at this
      simpa [trimStart] using this
    have h₂ : (back ++ c :: (rest ++ after)).dropWhile isSpace = c :: (rest ++ after) := by
      have := trimStart_append_of_isBlank hb (c :: (rest ++ after))
      rwa [trimStart_cons hc'] at this
    have h₃ : (front ++ '-' :: back ++ c :: rest ++ after).takeWhile isSpace = front := by
      have := takeWhile_isSpace_append hf (c := '-') (by decide) (back ++ c :: (rest ++ after))
      simpa using this
    have hy : yearAt? (c :: (rest ++ after)) = some (c :: rest, after) :=
      yearAt?_eq_some_iff.2 ⟨rfl, hd, hw⟩
    rw [rangeAt?_of_dropWhile h₁, h₂, h₃, hy, takeWhile_isSpace_append hb hc']
    rfl

/-! ### Year fields -/

namespace YearField

/-- The year field with a given first year, between the text before it and the text behind it: a
range if the latter goes on as one. -/
def around (before first behind : Text) : YearField :=
  match rangeAt? behind with
  | some (separator, digits, after) => ⟨before, first, some (separator, digits), after⟩
  | none => ⟨before, first, none, behind⟩

@[simp] theorem before_around (before first behind : Text) :
    (around before first behind).before = before := by
  unfold around
  split <;> rfl

@[simp] theorem first_around (before first behind : Text) :
    (around before first behind).first = first := by
  unfold around
  split <;> rfl

theorem push_around (c : Char) (before first behind : Text) :
    (around before first behind).push c = around (c :: before) first behind := by
  unfold around
  split <;> rfl

theorem around_range {separator digits after : Text} (hs : IsSeparator separator)
    (hd : IsYear digits) (hw : startsInWord after = false) (before first : Text) :
    around before first (separator ++ digits ++ after)
      = ⟨before, first, some (separator, digits), after⟩ := by
  have h := rangeAt?_eq_some_iff.2 ⟨rfl, hs, hd, hw⟩
  rw [around, h]

end YearField

theorem fieldAt?_eq_map (t : Text) :
    fieldAt? t = (yearAt? t).map fun year => YearField.around [] year.1 year.2 := rfl

theorem fieldAt?_of_isYear {digits after : Text} (hd : IsYear digits)
    (hw : startsInWord after = false) :
    fieldAt? (digits ++ after) = some (YearField.around [] digits after) := by
  rw [fieldAt?_eq_map, yearAt?_eq_some_iff.2 ⟨rfl, hd, hw⟩, Option.map_some]

theorem yearFieldFrom?_of_fieldAt? {t : Text} {field : YearField} (h : fieldAt? t = some field) :
    yearFieldFrom? false t = some field := by
  cases t with
  | nil => simp [fieldAt?, yearAt?] at h
  | cons c t => simp [yearFieldFrom?, h]

theorem yearFieldFrom?_of_none {inWord : Bool} {c : Char} {t : Text}
    (h : inWord = true ∨ fieldAt? (c :: t) = none) :
    yearFieldFrom? inWord (c :: t) = (yearFieldFrom? (isWord c) t).map (YearField.push c) := by
  rw [yearFieldFrom?]
  rcases h with rfl | h
  · rfl
  · cases inWord <;> simp [h]

/-- **A year field is found by what stands up to the end of its first year.**  Any text that does
not lengthen the word of that year can stand behind it. -/
theorem yearFieldFrom?_replace {inWord : Bool} {t : Text} {field : YearField}
    (h : yearFieldFrom? inWord t = some field) :
    ∃ behind, t = field.before ++ field.first ++ behind ∧ IsYear field.first
      ∧ startsInWord behind = false ∧ field = YearField.around field.before field.first behind
      ∧ ∀ other, startsInWord other = false →
        yearFieldFrom? inWord (field.before ++ field.first ++ other)
          = some (YearField.around field.before field.first other) := by
  induction t generalizing inWord field with
  | nil => simp [yearFieldFrom?] at h
  | cons c t ih =>
      -- either the field stands behind the first character, or it begins with it
      by_cases hc : inWord = true ∨ fieldAt? (c :: t) = none
      · rw [yearFieldFrom?_of_none hc] at h
        obtain ⟨inner, hi, rfl⟩ := Option.map_eq_some_iff.1 h
        obtain ⟨behind, ht, hy, hb, ha, hr⟩ := ih hi
        refine ⟨behind, by simp [YearField.push, ht], hy, hb, ?_, fun other hw => ?_⟩
        · rw [ha, YearField.push_around]
          simp
        -- with another text behind, no field begins here either: that is told by five characters
        · have hc' : inWord = true
              ∨ fieldAt? (c :: (inner.before ++ inner.first ++ other)) = none := by
            refine hc.imp id fun hn => ?_
            rw [fieldAt?_eq_map, Option.map_eq_none_iff] at hn ⊢
            have hl : 5 ≤ (c :: (inner.before ++ inner.first)).length := by
              have := hy.1
              simp only [List.length_cons, List.length_append]
              omega
            rw [ht] at hn
            exact (yearAt?_append_eq_none_iff hl behind other).1 hn
          rw [YearField.push, List.cons_append, List.cons_append, yearFieldFrom?_of_none hc',
            hr other hw, Option.map_some, YearField.push_around]
      · rw [not_or, Bool.not_eq_true] at hc
        obtain ⟨rfl, hc⟩ := hc
        obtain ⟨found, hf⟩ := Option.ne_none_iff_exists'.1 hc
        rw [yearFieldFrom?_of_fieldAt? hf] at h
        obtain rfl := Option.some.inj h
        rw [fieldAt?_eq_map] at hf
        obtain ⟨⟨digits, after⟩, hy, rfl⟩ := Option.map_eq_some_iff.1 hf
        obtain ⟨ht, hd, hw⟩ := yearAt?_eq_some_iff.1 hy
        refine ⟨after, by simpa using ht, by simpa using hd, hw, by simp, fun other ho => ?_⟩
        have := yearFieldFrom?_of_fieldAt? (fieldAt?_of_isYear hd ho)
        simpa using this

/-- A text that begins with a year has the year field that begins there. -/
theorem yearField?_of_isYear {digits after : Text} (hd : IsYear digits)
    (hw : startsInWord after = false) :
    yearField? (digits ++ after) = some (YearField.around [] digits after) :=
  yearFieldFrom?_of_fieldAt? (fieldAt?_of_isYear hd hw)

end Notice

end GitHooks
