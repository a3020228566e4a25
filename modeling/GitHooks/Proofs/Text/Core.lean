/-
**A text without its ends.**

Characters of one class are stripped from both ends of a text, or white space is trimmed.  What is
left is told without saying how: it stands in the text between characters of the class, and it has
none of them at its own ends.  There is one such piece of every text, and where the text has no
other characters the piece is empty.

Main definitions:

* `Text.IsCore` — what is left of a text without the characters of a class at its ends.

Main results:

* `Text.isCore_iff_stripBoth`, `Text.isCore_iff_trim` — stripping and trimming leave that.
-/

import GitHooks.Proofs.Text.Contents

set_option relaxedAutoImplicit false
set_option autoImplicit false

namespace GitHooks

namespace Text

variable {p : Char → Bool} {t u v : Text} {c : Char}

/-- What is left of a text without the characters of a class at its ends. -/
structure IsCore (p : Char → Bool) (t core : Text) : Prop where
  /-- It stands between characters of the class. -/
  within : ∃ front back, t = front ++ core ++ back ∧ front.all p = true ∧ back.all p = true
  begins : ∀ c ∈ core.head?, p c = false
  ends : ∀ c ∈ core.getLast?, p c = false

/-! ### Stripping -/

/-- A text is not stripped of what is left at its end. -/
theorem of_mem_getLast?_stripBoth (h : c ∈ (stripBoth p t).getLast?) : p c = false := by
  rw [stripBoth, List.getLast?_reverse, Option.mem_def] at h
  have hnot := List.head?_dropWhile_not p ((t.dropWhile p).reverse)
  rw [h] at hnot
  simpa using hnot

/-- A text is not stripped of what is left at its beginning. -/
theorem of_mem_head?_stripBoth (h : c ∈ (stripBoth p t).head?) : p c = false := by
  have hstart : stripBoth p t <+: t.dropWhile p := by
    have hend : (t.dropWhile p).reverse.dropWhile p <:+ (t.dropWhile p).reverse :=
      List.dropWhile_suffix p
    rw [← List.reverse_prefix, List.reverse_reverse] at hend
    exact hend
  obtain ⟨rest, hrest⟩ := hstart
  have hnot := List.head?_dropWhile_not p t
  rw [← hrest, List.head?_append, Option.mem_def.1 h] at hnot
  simpa using hnot

theorem isCore_stripBoth (p : Char → Bool) (t : Text) : IsCore p t (stripBoth p t) := by
  refine ⟨⟨t.takeWhile p, ((t.dropWhile p).reverse.takeWhile p).reverse, ?_, List.all_takeWhile,
    ?_⟩,
    fun _ => of_mem_head?_stripBoth, fun _ => of_mem_getLast?_stripBoth⟩
  · rw [stripBoth, List.append_assoc, ← List.reverse_append, List.takeWhile_append_dropWhile,
      List.reverse_reverse, List.takeWhile_append_dropWhile]
  · rw [List.all_reverse]
    exact List.all_takeWhile

/-- Nothing is dropped from a text that does not begin with the class. -/
theorem dropWhile_eq_self (h : ∀ c ∈ t.head?, p c = false) : t.dropWhile p = t := by
  cases t with
  | nil => rfl
  | cons c t => rw [List.dropWhile_cons_of_neg (by simp [h c rfl])]

theorem IsCore.stripBoth_eq (h : IsCore p t u) : stripBoth p t = u := by
  obtain ⟨⟨front, back, rfl, hfront, hback⟩, hbegins, hends⟩ := h
  rw [List.all_eq_true] at hfront hback
  rw [stripBoth, List.append_assoc, List.dropWhile_append_of_pos hfront]
  cases u with
  | nil =>
      have hnil : back.dropWhile p = [] := List.dropWhile_eq_nil_iff.2 hback
      rw [List.nil_append, hnil]
      rfl
  | cons c u =>
      have hstart : (c :: u ++ back).dropWhile p = c :: u ++ back :=
        dropWhile_eq_self fun d hd => hbegins d hd
      have hend : (c :: u).reverse.dropWhile p = (c :: u).reverse :=
        dropWhile_eq_self fun d hd => hends d (by rwa [List.head?_reverse] at hd)
      rw [hstart, List.reverse_append, List.dropWhile_append_of_pos (by simpa using hback), hend,
        List.reverse_reverse]

/-- **What stripping leaves.** -/
theorem isCore_iff_stripBoth : IsCore p t u ↔ u = stripBoth p t := by
  constructor
  · intro h
    exact h.stripBoth_eq.symm
  · rintro rfl
    exact isCore_stripBoth p t

/-! ### Trimming -/

theorem isCore_trim (t : Text) : IsCore isSpace t (trim t) := by
  obtain ⟨front, back, -, hfront, hback, ht⟩ := exists_trim_append t
  rcases eq_or_ne (trim t) [] with hnil | hne
  · exact ⟨⟨front, back, ht, hfront, hback⟩, by simp [hnil], by simp [hnil]⟩
  · obtain ⟨⟨d, u, hu, hd⟩, v, e, hv, he⟩ := ends_of_trim_eq (trim_trim t) hne
    refine ⟨⟨front, back, ht, hfront, hback⟩, fun c hc => ?_, fun c hc => ?_⟩
    · rw [hu] at hc
      exact Option.some.inj hc ▸ hd
    · rw [hv, List.getLast?_concat] at hc
      exact Option.some.inj hc ▸ he

/-- **What trimming leaves.** -/
theorem isCore_iff_trim : IsCore isSpace t u ↔ u = trim t := by
  rw [isCore_iff_stripBoth, ← (isCore_trim t).stripBoth_eq]

end Text

end GitHooks
