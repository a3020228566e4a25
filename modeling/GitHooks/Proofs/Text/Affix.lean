/-
**Beginnings, ends and occurrences.**

The searches of a text answer with a Boolean.  Here each answer is put as the relation of lists it
stands for, so that what is known of prefixes, suffixes and infixes applies to texts.

Main results:

* `Text.startsWith_iff`, `Text.endsWith_iff`, `Text.occursIn_iff` — the three searches as
  relations;
* `Text.dropLeading?_eq_some_iff`, `Text.dropTrailing?_eq_some_iff` — what is left of a text is what
  stands behind its beginning, or before its end;
* `Text.prefix_append_cons_iff`, `Text.suffix_append_cons_iff`, `Text.occursIn_append_cons` — a
  piece without a certain character is found on one side of that character or not at all;
* `Text.cutWhere?_append_cons` — a text is cut at the first character of a class.
-/

import GitHooks.Text.Basic

set_option relaxedAutoImplicit false
set_option autoImplicit false

namespace GitHooks

namespace Text

variable {piece t u : Text}

/-! ### Searches as relations -/

theorem startsWith_iff : startsWith t piece = true ↔ piece <+: t := by
  simp [startsWith]

theorem endsWith_iff : endsWith t piece = true ↔ piece <:+ t := by
  simp [endsWith]

/-- A piece occurs in a text exactly when the text falls apart around it. -/
theorem occursIn_iff : occursIn piece t = true ↔ piece <:+: t := by
  induction t with
  | nil => simp [occursIn]
  | cons c t ih =>
      rw [occursIn, Bool.or_eq_true, ih, List.infix_cons_iff]
      simp

theorem startsWith_eq_false_iff : startsWith t piece = false ↔ ¬ piece <+: t := by
  rw [← startsWith_iff, Bool.not_eq_true]

theorem endsWith_eq_false_iff : endsWith t piece = false ↔ ¬ piece <:+ t := by
  rw [← endsWith_iff, Bool.not_eq_true]

theorem occursIn_eq_false_iff : occursIn piece t = false ↔ ¬ piece <:+: t := by
  rw [← occursIn_iff, Bool.not_eq_true]

/-! ### What is left -/

/-- What is left of a text without its beginning is what stands behind it. -/
theorem dropLeading?_eq_some_iff : dropLeading? piece t = some u ↔ t = piece ++ u := by
  unfold dropLeading?
  constructor
  · intro h
    split at h
    · next hp =>
      obtain ⟨back, rfl⟩ := List.isPrefixOf_iff_prefix.1 hp
      simp at h
      rw [h]
    · simp at h
  · rintro rfl
    simp

theorem dropLeading?_eq_none_iff : dropLeading? piece t = none ↔ ¬ piece <+: t := by
  simp [dropLeading?]

/-- What is left of a text without its end is what stands before it. -/
theorem dropTrailing?_eq_some_iff : dropTrailing? piece t = some u ↔ t = u ++ piece := by
  unfold dropTrailing?
  constructor
  · intro h
    split at h
    · next hp =>
      obtain ⟨front, rfl⟩ := List.isSuffixOf_iff_suffix.1 hp
      simp at h
      rw [h]
    · simp at h
  · rintro rfl
    simp

theorem dropTrailing?_eq_none_iff : dropTrailing? piece t = none ↔ ¬ piece <:+ t := by
  simp [dropTrailing?]

/-! ### Pieces beside a character they do not have -/

variable {c : Char}

theorem prefix_append_cons_iff (h : c ∉ piece) : piece <+: t ++ c :: u ↔ piece <+: t := by
  constructor
  · intro hp
    rcases List.prefix_or_prefix_of_prefix hp (List.prefix_append t (c :: u)) with ht | ht
    · exact ht
    · obtain ⟨rest, rfl⟩ := ht
      cases rest with
      | nil => simp
      | cons d rest =>
          obtain ⟨rfl, -⟩ : d = c ∧ rest <+: u := by simpa [List.cons_prefix_cons] using hp
          simp at h
  · exact fun ht => ht.trans (List.prefix_append t (c :: u))

theorem suffix_append_cons_iff (h : c ∉ piece) : piece <:+ t ++ c :: u ↔ piece <:+ u := by
  constructor
  · intro hs
    have hc : c :: u <:+ t ++ c :: u := List.suffix_append t (c :: u)
    rcases List.suffix_or_suffix_of_suffix hs hc with hu | hu
    · rcases List.suffix_cons_iff.1 hu with rfl | hu
      · simp at h
      · exact hu
    · exact absurd (hu.subset (List.mem_cons_self ..)) h
  · intro hu
    exact hu.trans (List.IsSuffix.trans (List.suffix_cons c u) (List.suffix_append t (c :: u)))

theorem infix_append_cons_iff (h : c ∉ piece) :
    piece <:+: t ++ c :: u ↔ piece <:+: t ∨ piece <:+: u := by
  constructor
  · rintro ⟨front, back, hf⟩
    have hp : piece <:+ front ++ piece := List.suffix_append front piece
    rcases List.append_eq_append_iff.1 hf with ⟨rest, ht, -⟩ | ⟨rest, hf', hu⟩
    · exact Or.inl ⟨front, rest, by rw [ht]⟩
    · cases rest with
      | nil => exact Or.inl ⟨front, [], by simpa using hf'⟩
      | cons d rest =>
          obtain ⟨rfl, rfl⟩ : c = d ∧ u = rest ++ back := by simpa using hu
          rw [hf', suffix_append_cons_iff h] at hp
          exact Or.inr (hp.isInfix.trans (List.prefix_append rest back).isInfix)
  · rintro (ht | hu)
    · exact ht.trans (List.prefix_append t (c :: u)).isInfix
    · exact hu.trans ((List.suffix_cons c u).trans (List.suffix_append t (c :: u))).isInfix

theorem occursIn_append_cons (h : c ∉ piece) (t u : Text) :
    occursIn piece (t ++ c :: u) = (occursIn piece t || occursIn piece u) := by
  rw [Bool.eq_iff_iff, Bool.or_eq_true, occursIn_iff, occursIn_iff, occursIn_iff,
    infix_append_cons_iff h]

/-! ### Cutting at a character -/

/-- A piece of one character is found where the character is. -/
theorem cutAt?_singleton (c : Char) (t : Text) : cutAt? [c] t = cutWhere? (· == c) t := by
  induction t with
  | nil => rfl
  | cons d t ih =>
      rw [cutAt?, cutWhere?, ih]
      by_cases hd : d = c
      · simp [hd]
      · simp [hd, Ne.symm hd]

theorem cutWhere?_of_forall {p : Char → Bool} (h : ∀ c ∈ t, p c = false) :
    cutWhere? p t = none := by
  induction t with
  | nil => rfl
  | cons c t ih =>
      obtain ⟨hc, ht⟩ := List.forall_mem_cons.1 h
      rw [cutWhere?, hc, if_neg Bool.false_ne_true, ih ht]
      rfl

theorem cutWhere?_append_cons {p : Char → Bool} {c : Char} (h : ∀ d ∈ t, p d = false)
    (hc : p c = true) (u : Text) : cutWhere? p (t ++ c :: u) = some (t, u) := by
  induction t with
  | nil => rw [List.nil_append, cutWhere?, if_pos hc]
  | cons d t ih =>
      obtain ⟨hd, ht⟩ := List.forall_mem_cons.1 h
      rw [List.cons_append, cutWhere?, hd, if_neg Bool.false_ne_true, ih ht]
      rfl

end Text

end GitHooks
