/-
**Pieces at the end of a text.**

A text is closed by a piece when it ends with the piece and holds it nowhere else: a reader that
looks for the piece finds the end.  A piece that is put behind a space closes a text exactly when
the text has none of it before.  For pieces without line ends this does not depend on how the lines
of the text are ended, so it can be read off line by line.

Main definitions:

* `Text.OnlyAtEnd` — a piece that occurs nowhere but at the end;
* `Text.ClosedBy` — a text that a piece closes.

Main results:

* `Text.onlyAtEnd_append_cons` — what a character that the piece does not have divides;
* `Text.infix_joinWith_iff` — a piece occurs in joined lines exactly when it occurs in one of them;
* `Text.joinWith_lines_append`, `Text.exists_joinWith_lines_append` — the lines of a text with
  something in front of it or behind it, joined again.
-/

import GitHooks.Proofs.Text.Contents
import GitHooks.Proofs.Text.Join

set_option relaxedAutoImplicit false
set_option autoImplicit false

namespace GitHooks

namespace Text

variable {c : Char} {piece t u : Text}

/-! ### Pieces that occur at the end only -/

/-- A piece occurs in a text nowhere but at its end. -/
def OnlyAtEnd (piece t : Text) : Prop := ∀ front back, t = front ++ piece ++ back → back = []

/-- A text ends with a piece and holds it nowhere else. -/
structure ClosedBy (piece t : Text) : Prop where
  ends : piece <:+ t
  only : OnlyAtEnd piece t

/-- An occurrence that is not at the end is one without the last character. -/
theorem onlyAtEnd_iff (hne : piece ≠ []) : OnlyAtEnd piece t ↔ ¬ piece <:+: t.dropLast := by
  constructor
  · rintro honly ⟨front, back, hin⟩
    have ht : t ≠ [] := by
      rintro rfl
      simp [hne] at hin
    have hback := honly front (back ++ [t.getLast ht]) (by
      rw [← List.append_assoc, hin, List.dropLast_concat_getLast])
    simp at hback
  · rintro hnot front back rfl
    refine Decidable.byContradiction fun hback => hnot ?_
    rw [List.dropLast_append_of_ne_nil hback]
    exact ⟨front, back.dropLast, rfl⟩

/-- A piece that a text does not end with occurs at the end only if it does not occur. -/
theorem onlyAtEnd_iff_of_not_suffix (h : ¬ piece <:+ t) : OnlyAtEnd piece t ↔ ¬ piece <:+: t := by
  constructor
  · rintro honly ⟨front, back, rfl⟩
    obtain rfl := honly front back rfl
    exact h ⟨front, (List.append_nil _).symm⟩
  · rintro hnot front back rfl
    exact absurd ⟨front, back, rfl⟩ hnot

/-- A character that a piece does not have divides a text: the piece must not occur before it. -/
theorem onlyAtEnd_append_cons (hc : c ∉ piece) (hne : piece ≠ []) :
    OnlyAtEnd piece (t ++ c :: u) ↔ ¬ piece <:+: t ∧ OnlyAtEnd piece u := by
  rw [onlyAtEnd_iff hne, onlyAtEnd_iff hne]
  cases hu : u with
  | nil => simp [hne]
  | cons d v =>
      rw [List.dropLast_append_of_ne_nil (List.cons_ne_nil _ _), List.dropLast_cons_of_ne_nil
        (List.cons_ne_nil _ _), infix_append_cons_iff hc, not_or]

theorem onlyAtEnd_self (hne : piece ≠ []) : OnlyAtEnd piece piece := by
  rw [onlyAtEnd_iff hne]
  intro hin
  have hlength := hin.length_le
  have hpos := List.length_pos_of_ne_nil hne
  rw [List.length_dropLast] at hlength
  omega

/-- A piece that is put behind a space, where the text does not end with it yet. -/
theorem onlyAtEnd_append_space (hspace : ' ' ∉ piece) (hne : piece ≠ []) (h : ¬ piece <:+ t) :
    OnlyAtEnd piece (t ++ ' ' :: piece) ↔ OnlyAtEnd piece t := by
  rw [onlyAtEnd_append_cons hspace hne, onlyAtEnd_iff_of_not_suffix h]
  exact and_iff_left (onlyAtEnd_self hne)

/-- A piece of one character over and over, where the text does not end with this character. -/
theorem onlyAtEnd_append_self (hpiece : ∀ d ∈ piece, d = c) (hin : ¬ piece <:+: t)
    (hend : ¬ [c] <:+ t) : OnlyAtEnd piece (t ++ piece) := by
  intro front back h
  rw [List.append_assoc] at h
  rcases List.append_eq_append_iff.1 h with ⟨x, -, hx⟩ | ⟨y, rfl, hy⟩
  · have hlength := congrArg List.length hx
    simp only [List.length_append] at hlength
    exact List.eq_nil_of_length_eq_zero (by omega)
  · rcases List.eq_nil_or_concat y with rfl | ⟨v, d, rfl⟩
    · exact List.append_right_eq_self.1 hy
    · -- the occurrence begins inside the text: it is there as a whole, or its beginning is
      rw [List.concat_eq_append] at *
      rcases List.prefix_or_prefix_of_prefix ⟨back, hy⟩ (List.prefix_append _ piece) with hp | hp
      · exact absurd (hp.isInfix.trans (List.suffix_append front _).isInfix) hin
      · obtain rfl := hpiece d (hp.subset (by simp))
        exact absurd ⟨front ++ v, by simp⟩ hend

/-! ### Pieces in joined lines -/

/-- A piece without a line feed occurs in joined lines exactly when it occurs in one of them. -/
theorem infix_joinWith_iff (hfeed : '\n' ∉ piece) (hne : piece ≠ []) (lines : List Text) :
    piece <:+: joinWith ['\n'] lines ↔ ∃ line ∈ lines, piece <:+: line := by
  induction lines with
  | nil => simp [hne]
  | cons line rest ih =>
      cases rest with
      | nil => simp
      | cons next rest =>
          rw [joinWith_cons_cons, List.append_assoc, List.singleton_append,
            infix_append_cons_iff hfeed, ih]
          simp only [List.mem_cons, exists_eq_or_imp]

/-- Joined lines end as the last of them does, as far as it reaches. -/
theorem suffix_joinWith_iff (hfeed : '\n' ∉ piece) (hne : piece ≠ []) (lines : List Text) :
    piece <:+ joinWith ['\n'] lines ↔ ∃ line ∈ lines.getLast?, piece <:+ line := by
  induction lines with
  | nil => simp [hne]
  | cons line rest ih =>
      cases rest with
      | nil => simp
      | cons next rest =>
          rw [joinWith_cons_cons, List.append_assoc, List.singleton_append,
            suffix_append_cons_iff hfeed, ih, List.getLast?_cons_cons]

/-! ### The lines of a text, joined again -/

theorem dropReturn_append_return (t : Text) : dropReturn (t ++ ['\r']) = t := by
  have hdrop : dropTrailing? "\r" (t ++ ['\r']) = some t := dropTrailing?_eq_some_iff.2 rfl
  rw [dropReturn, hdrop]
  rfl

theorem dropReturn_append (hreturn : '\r' ∉ u) (t : Text) :
    dropReturn (u ++ t) = u ++ dropReturn t := by
  by_cases ht : ['\r'] <:+ t
  · obtain ⟨v, rfl⟩ := ht
    rw [← List.append_assoc, dropReturn_append_return, dropReturn_append_return]
  · have hut : ¬ ['\r'] <:+ u ++ t := by
      intro h
      rcases List.suffix_or_suffix_of_suffix h (List.suffix_append u t) with h' | h'
      · exact ht h'
      · rcases List.suffix_cons_iff.1 h' with rfl | hnil
        · exact ht (List.suffix_refl _)
        · obtain rfl := List.suffix_nil.1 hnil
          rw [List.append_nil] at h
          exact hreturn (h.subset (List.mem_singleton_self _))
    rw [dropReturn_of_not_suffix ht, dropReturn_of_not_suffix hut]

theorem infix_dropReturn_iff (hreturn : '\r' ∉ piece) (t : Text) :
    piece <:+: dropReturn t ↔ piece <:+: t := by
  have happend : ∀ u : Text, (piece <:+: u ++ ['\r']) = (piece <:+: u) := fun u => by
    rw [infix_append_cons_iff hreturn, eq_iff_iff]
    exact or_iff_left_of_imp fun h => h.trans (List.nil_infix)
  exact iff_of_eq (apply_dropReturn (f := fun u => piece <:+: u) happend t)

theorem joinWith_lines_of_not_mem (h : '\n' ∉ t) : joinWith ['\n'] (lines t) = t := by
  by_cases ht : t = []
  · rw [ht]
    rfl
  · rw [lines_of_not_mem h ht]
    rfl

/-- The first line of a text, joined with the others; where there is none behind it, its end is
lost. -/
theorem joinWith_lines_feed (hu : '\n' ∉ u) (t : Text) :
    joinWith ['\n'] (lines (u ++ '\n' :: t))
      = dropReturn u ++ if lines t = [] then [] else '\n' :: joinWith ['\n'] (lines t) := by
  rw [lines_append_feed hu]
  split
  · next hnil => rw [hnil, joinWith_singleton, List.append_nil]
  · next hne => rw [joinWith_cons _ _ hne, List.append_assoc, List.singleton_append]

/-- What stands in front of a text stands in front of its lines. -/
theorem joinWith_lines_append (hfeed : '\n' ∉ u) (hreturn : '\r' ∉ u) (t : Text) :
    joinWith ['\n'] (lines (u ++ t)) = u ++ joinWith ['\n'] (lines t) := by
  by_cases ht : '\n' ∈ t
  · obtain ⟨v, w, rfl, hv⟩ := List.eq_append_cons_of_mem ht
    have huv : '\n' ∉ u ++ v := by simp [hfeed, hv]
    rw [← List.append_assoc, joinWith_lines_feed huv, joinWith_lines_feed hv,
      dropReturn_append hreturn, List.append_assoc]
  · rw [joinWith_lines_of_not_mem ht, joinWith_lines_of_not_mem (by simp [hfeed, ht])]

/-- **The lines of a text hold what the text holds**, however they are ended. -/
theorem infix_joinWith_lines_iff (hfeed : '\n' ∉ piece) (hreturn : '\r' ∉ piece) (t : Text) :
    piece <:+: joinWith ['\n'] (lines t) ↔ piece <:+: t := by
  induction t using line_induction with
  | line t ht => rw [joinWith_lines_of_not_mem ht]
  | feed u t hu ih =>
      rw [joinWith_lines_feed hu, infix_append_cons_iff hfeed, ← ih,
        ← infix_dropReturn_iff hreturn u]
      split
      · next hnil =>
        rw [hnil, List.append_nil]
        exact (or_iff_left_of_imp fun h => h.trans List.nil_infix).symm
      · rw [infix_append_cons_iff hfeed]

/-- **What stands behind a text** stands behind its lines, and what is left before it holds, and
ends with, what the text does. -/
theorem exists_joinWith_lines_append (t : Text) :
    ∃ kept, (∀ back, back ≠ [] → '\n' ∉ back →
        joinWith ['\n'] (lines (t ++ back)) = kept ++ back)
      ∧ ∀ piece : Text, '\n' ∉ piece → '\r' ∉ piece →
        (piece <:+: kept ↔ piece <:+: t) ∧ (piece <:+ kept ↔ piece <:+ t) := by
  induction t using line_induction with
  | line t ht =>
      refine ⟨t, fun back hback hfeed => ?_, fun piece _ _ => ⟨Iff.rfl, Iff.rfl⟩⟩
      exact joinWith_lines_of_not_mem (by simp [ht, hfeed])
  | feed u t hu ih =>
      obtain ⟨kept, hkept, hpiece⟩ := ih
      refine ⟨dropReturn u ++ '\n' :: kept, fun back hback hfeed => ?_,
        fun piece hfeed hreturn => ?_⟩
      · have hne : lines (t ++ back) ≠ [] := by
          intro hnil
          have hjoin := hkept back hback hfeed
          rw [hnil, joinWith_nil] at hjoin
          simp [hback] at hjoin
        rw [List.append_assoc, List.cons_append, joinWith_lines_feed hu, if_neg hne,
          hkept back hback hfeed, List.append_assoc, List.cons_append]
      · rw [infix_append_cons_iff hfeed, infix_append_cons_iff hfeed, infix_dropReturn_iff hreturn,
          (hpiece piece hfeed hreturn).1, suffix_append_cons_iff hfeed,
          suffix_append_cons_iff hfeed]
        exact ⟨Iff.rfl, (hpiece piece hfeed hreturn).2⟩

end Text

end GitHooks
