/-
**What trimming leaves.**

Trimming is governed by the first and the last character that is not white space: what stands
between them is kept as it is, whatever stands around them.  So a trimmed text is described by
naming one character of it that is not white space, and trimming the two sides of it.

Main results:

* `Text.trimStart_append_cons`, `Text.trimEnd_append_cons`, `Text.trim_append_cons` — trimming a
  text around a character that is not white space;
* `Text.exists_trim_append` — a text is what trimming leaves of it, with white space around it.
-/

import GitHooks.Proofs.Text.Affix
import GitHooks.Text.Space

set_option relaxedAutoImplicit false
set_option autoImplicit false

namespace GitHooks

namespace Text

variable {c : Char} {t u blank : Text}

/-! ### Runs of a class -/

theorem takeWhile_append_cons {p : Char → Bool} (h : p c = false) (t u : Text) :
    (t ++ c :: u).takeWhile p = t.takeWhile p := by
  induction t with
  | nil => simp [h]
  | cons d t ih => cases hd : p d <;> simp [hd, ih]

theorem dropWhile_append_cons {p : Char → Bool} (h : p c = false) (t u : Text) :
    (t ++ c :: u).dropWhile p = t.dropWhile p ++ c :: u := by
  induction t with
  | nil => simp [h]
  | cons d t ih => cases hd : p d <;> simp [hd, ih]

/-! ### White space at the beginning -/

theorem trimStart_append_cons (h : isSpace c = false) (t u : Text) :
    trimStart (t ++ c :: u) = trimStart t ++ c :: u := dropWhile_append_cons h t u

theorem indentation_append_cons (h : isSpace c = false) (t u : Text) :
    indentation (t ++ c :: u) = indentation t := by
  rw [indentation, takeWhile_append_cons h, indentation]

theorem trimStart_cons (h : isSpace c = false) (t : Text) : trimStart (c :: t) = c :: t := by
  simp [trimStart, h]

theorem trimStart_append_of_isBlank (h : isBlank blank = true) (t : Text) :
    trimStart (blank ++ t) = trimStart t := by
  simp only [isBlank, List.all_eq_true] at h
  exact List.dropWhile_append_of_pos h

/-- A text is white space with what trimming its beginning leaves behind it. -/
theorem exists_append_trimStart (t : Text) :
    ∃ blank, isBlank blank = true ∧ t = blank ++ trimStart t :=
  ⟨t.takeWhile isSpace, List.all_takeWhile, List.takeWhile_append_dropWhile.symm⟩

/-- What trimming the beginning leaves does not begin with white space. -/
theorem isSpace_of_mem_head?_trimStart (h : c ∈ (trimStart t).head?) : isSpace c = false := by
  have hhead := List.head?_dropWhile_not isSpace t
  rw [← trimStart, Option.mem_def.1 h] at hhead
  simpa using hhead

theorem trimStart_append (h : trimStart t ≠ []) (u : Text) :
    trimStart (t ++ u) = trimStart t ++ u := by
  rw [trimStart, List.dropWhile_append, if_neg (by simpa [trimStart] using h)]
  rfl

theorem indentation_add_length_trimStart (t : Text) :
    indentation t + (trimStart t).length = t.length := by
  rw [indentation, trimStart, ← List.length_append, List.takeWhile_append_dropWhile]

/-! ### White space at the end -/

theorem trimEnd_append_cons (h : isSpace c = false) (t u : Text) :
    trimEnd (t ++ c :: u) = t ++ c :: trimEnd u := by
  induction t with
  | nil => cases hu : trimEnd u <;> simp [trimEnd, h, hu]
  | cons d t ih =>
      cases t with
      | nil => simp_all [trimEnd]
      | cons e t => simp_all [trimEnd]

theorem trimEnd_concat (h : isSpace c = false) (t : Text) : trimEnd (t ++ [c]) = t ++ [c] := by
  rw [trimEnd_append_cons h, trimEnd_nil]

theorem trimEnd_append_of_isBlank (h : isBlank blank = true) (t : Text) :
    trimEnd (t ++ blank) = trimEnd t := by
  induction t with
  | nil => exact trimEnd_eq_nil_iff.2 h
  | cons c t ih => simp [trimEnd, ih]

/-- A text is what trimming its end leaves, with white space behind it. -/
theorem exists_trimEnd_append (t : Text) :
    ∃ blank, isBlank blank = true ∧ t = trimEnd t ++ blank := by
  induction t with
  | nil => exact ⟨[], rfl, rfl⟩
  | cons c t ih =>
      obtain ⟨blank, hb, ht⟩ := ih
      cases hu : trimEnd t with
      | nil =>
          cases hc : isSpace c with
          | false =>
              refine ⟨blank, hb, ?_⟩
              rw [hu] at ht
              simpa [trimEnd, hu, hc] using ht
          | true =>
              refine ⟨c :: t, ?_, by simp [trimEnd, hu, hc]⟩
              have := trimEnd_eq_nil_iff.1 hu
              simp_all [isBlank]
      | cons d u =>
          refine ⟨blank, hb, ?_⟩
          rw [hu] at ht
          simpa [trimEnd, hu] using ht

theorem trimEnd_prefix (t : Text) : trimEnd t <+: t := by
  obtain ⟨blank, -, ht⟩ := exists_trimEnd_append t
  exact ⟨blank, ht.symm⟩

/-- What is put behind a text does not change what trimming its end leaves. -/
theorem trimEnd_prefix_trimEnd_append (t u : Text) : trimEnd t <+: trimEnd (t ++ u) := by
  induction t with
  | nil => exact List.nil_prefix
  | cons c t ih =>
      cases ht : trimEnd t with
      | nil =>
          cases hc : isSpace c with
          | true => simp [trimEnd, ht, hc]
          | false =>
              rw [← List.nil_append (c :: t), List.append_assoc, List.cons_append,
                trimEnd_append_cons hc, trimEnd_append_cons hc, ht]
              exact List.prefix_append [c] _
      | cons d rest =>
          obtain ⟨more, hmore⟩ := ih
          rw [ht, List.cons_append] at hmore
          rw [List.cons_append, trimEnd, trimEnd, ht, ← hmore]
          exact List.prefix_append (c :: d :: rest) more

/-! ### Trimmed texts -/

/-- A text is what trimming leaves of it, with white space on both sides. -/
theorem exists_trim_append (t : Text) : ∃ front back, front.length = indentation t
    ∧ isBlank front = true ∧ isBlank back = true ∧ t = front ++ trim t ++ back := by
  obtain ⟨back, hb, hback⟩ := exists_trimEnd_append (trimStart t)
  refine ⟨t.takeWhile isSpace, back, rfl, List.all_takeWhile, hb, ?_⟩
  rw [trim, List.append_assoc, ← hback, trimStart, List.takeWhile_append_dropWhile]

/-- A trimmed text that is not empty has no white space at its ends. -/
theorem ends_of_trim_eq (h : trim t = t) (ht : t ≠ []) :
    (∃ d u, t = d :: u ∧ isSpace d = false) ∧ ∃ u d, t = u ++ [d] ∧ isSpace d = false := by
  have hstart : trimStart t = t := by
    obtain ⟨back, -, hback⟩ := exists_trimEnd_append (trimStart t)
    have hlen := congrArg List.length hback
    have hsum := indentation_add_length_trimStart t
    rw [← trim, h, List.length_append] at hlen
    have hs : t.takeWhile isSpace = [] := by
      rw [← List.length_eq_zero_iff, ← indentation]
      omega
    rw [trimStart]
    conv => rhs; rw [← List.takeWhile_append_dropWhile (p := isSpace) (l := t), hs]
    rfl
  constructor
  · obtain ⟨d, u, rfl⟩ := List.exists_cons_of_ne_nil ht
    refine ⟨d, u, rfl, Bool.eq_false_iff.2 fun hd => ?_⟩
    have := (List.dropWhile_suffix isSpace (l := u)).length_le
    have hlen := congrArg List.length hstart
    simp only [trimStart, List.dropWhile_cons, hd, if_true, List.length_cons] at hlen
    omega
  · rcases List.eq_nil_or_concat t with rfl | ⟨u, d, rfl⟩
    · exact absurd rfl ht
    · refine ⟨u, d, List.concat_eq_append, Bool.eq_false_iff.2 fun hd => ?_⟩
      rw [List.concat_eq_append] at h hstart
      obtain ⟨back, -, hback⟩ := exists_trimEnd_append u
      have hlen := congrArg List.length h
      have hlen' := congrArg List.length hback
      rw [trim, hstart, trimEnd_append_of_isBlank (by simp [isBlank, hd])] at hlen
      simp only [List.length_append, List.length_singleton] at hlen hlen'
      omega

theorem trim_append_cons (h : isSpace c = false) (t u : Text) :
    trim (t ++ c :: u) = trimStart t ++ c :: trimEnd u := by
  rw [trim, trimStart_append_cons h, trimEnd_append_cons h]

theorem isBlank_append_cons (h : isSpace c = false) (t u : Text) :
    isBlank (t ++ c :: u) = false := by
  simp [isBlank, h]

end Text

end GitHooks
