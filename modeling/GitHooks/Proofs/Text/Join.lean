/-
**Cutting what was joined.**

Pieces that are joined with a separator are cut apart again at the same places, provided that the
search for the separator does not hit earlier.  It could do so inside a piece, and also where a
piece ends with the beginning of a separator; so a piece must not contain the separator even when
all but the last character of one follows.  The pieces of any text contain no separator.

Main definitions:

* `Text.IsPiece` — what can stand before a separator.

Main results:

* `Text.splitOn_joinWith` — cutting undoes joining;
* `Text.not_infix_of_mem_splitOn`, `Text.append_infix_of_mem_splitOn` — the pieces of a text have no
  separator in them, and stand before separators.
-/

import GitHooks.Proofs.Text.Split

set_option relaxedAutoImplicit false
set_option autoImplicit false

namespace GitHooks

namespace Text

variable {separator piece t : Text} {pieces : List Text}

/-! ### Cutting undoes joining -/

/-- A text before a separator in which the search for it does not succeed. -/
def IsPiece (separator piece : Text) : Prop := ¬ separator <:+: piece ++ separator.dropLast

theorem IsPiece.not_infix (h : IsPiece separator piece) : ¬ separator <:+: piece :=
  fun hin => h (hin.trans (List.prefix_append piece _).isInfix)

theorem splitFrom_append (separator u t : Text) :
    splitFrom separator u.length (u ++ t) = splitOn separator t := by
  induction u with
  | nil => rfl
  | cons c u ih => exact ih

/-- A piece is cut off before the separator that follows it. -/
theorem splitOn_append (hs : separator ≠ []) (h : IsPiece separator piece) (t : Text) :
    splitOn separator (piece ++ separator ++ t) = piece :: splitOn separator t := by
  induction piece with
  | nil =>
      obtain ⟨d, rest, rfl⟩ := List.exists_cons_of_ne_nil hs
      have hp : (d :: rest).isPrefixOf (d :: (rest ++ t)) = true :=
        List.isPrefixOf_iff_prefix.2 ⟨t, rfl⟩
      rw [List.nil_append, List.cons_append, splitOn, splitFrom, if_pos hp]
      exact congrArg ([] :: ·) (splitFrom_append (d :: rest) rest t)
  | cons c piece ih =>
      have hp : separator.isPrefixOf (c :: (piece ++ separator ++ t)) = false := by
        rw [← Bool.not_eq_true, List.isPrefixOf_iff_prefix]
        intro hpre
        -- a separator at this place ends within what the condition looks at
        have hfull : c :: (piece ++ separator ++ t)
            = (c :: piece ++ separator.dropLast) ++ ([separator.getLast hs] ++ t) := by
          calc
            c :: (piece ++ separator ++ t)
              = c :: (piece ++ (separator.dropLast ++ [separator.getLast hs]) ++ t) := by
                rw [List.dropLast_concat_getLast hs]
            _ = (c :: piece ++ separator.dropLast) ++ ([separator.getLast hs] ++ t) := by simp
        have hlength : separator.length ≤ (c :: piece ++ separator.dropLast).length := by
          simp only [List.length_append, List.length_cons, List.length_dropLast]
          omega
        rw [hfull] at hpre
        exact h (List.prefix_of_prefix_length_le hpre (List.prefix_append _ _) hlength).isInfix
      have hrest : IsPiece separator piece := fun hin =>
        h (hin.trans (List.suffix_cons c (piece ++ separator.dropLast)).isInfix)
      rw [List.cons_append, List.cons_append, splitOn, splitFrom, hp, if_neg Bool.false_ne_true,
        ← splitOn, ih hrest]
      rfl

theorem splitOn_of_not_infix (h : ¬ separator <:+: t) :
    splitOn separator t = [t] := by
  induction t with
  | nil => rfl
  | cons c t ih =>
      rw [List.infix_cons_iff, not_or] at h
      have hp : separator.isPrefixOf (c :: t) = false := by
        rw [← Bool.not_eq_true, List.isPrefixOf_iff_prefix]
        exact h.1
      rw [splitOn, splitFrom, hp, if_neg Bool.false_ne_true, ← splitOn, ih h.2]
      rfl

/-- **Cutting undoes joining.** -/
theorem splitOn_joinWith (hs : separator ≠ []) (hne : pieces ≠ [])
    (hpieces : ∀ piece ∈ pieces, IsPiece separator piece) :
    splitOn separator (joinWith separator pieces) = pieces := by
  induction pieces with
  | nil => exact absurd rfl hne
  | cons piece rest ih =>
      have hpiece := hpieces piece List.mem_cons_self
      cases rest with
      | nil => exact splitOn_of_not_infix hpiece.not_infix
      | cons next rest =>
          have hrest := ih (by simp) fun other hother =>
            hpieces other (List.mem_cons_of_mem _ hother)
          rw [joinWith_cons_cons, splitOn_append hs hpiece, hrest]

/-! ### The pieces of a text -/

theorem prefix_joinWith (separator piece : Text) (rest : List Text) :
    piece <+: joinWith separator (piece :: rest) := by
  cases rest with
  | nil => exact List.prefix_refl piece
  | cons next rest =>
      rw [joinWith_cons_cons, List.append_assoc]
      exact List.prefix_append piece _

theorem not_infix_of_mem_splitFrom (hs : separator ≠ []) (passing : Nat) (t : Text)
    (h : piece ∈ splitFrom separator passing t) : ¬ separator <:+: piece := by
  induction t generalizing passing piece with
  | nil =>
      obtain rfl : piece = [] := by simpa [splitFrom] using h
      exact fun hin => hs (List.eq_nil_of_infix_nil hin)
  | cons c t ih =>
      cases passing with
      | succ passing => exact ih passing h
      | zero =>
          rw [splitFrom] at h
          split at h
          · rcases List.mem_cons.1 h with rfl | h
            · exact fun hin => hs (List.eq_nil_of_infix_nil hin)
            · exact ih _ h
          · next hc =>
            obtain ⟨first, rest, hpieces⟩ :=
              List.exists_cons_of_ne_nil (splitFrom_ne_nil separator 0 t)
            rw [hpieces, List.modifyHead_cons] at h
            rcases List.mem_cons.1 h with rfl | h
            · rw [List.infix_cons_iff]
              rintro (hpre | hin)
              · have hfirst : first <+: t := by
                  have hjoin := prefix_joinWith separator first rest
                  rwa [← hpieces, joinWith_splitFrom hs 0 t (Nat.zero_le _)] at hjoin
                exact hc (List.isPrefixOf_iff_prefix.2
                  (hpre.trans (List.prefix_cons_inj c |>.2 hfirst)))
              · exact ih 0 (hpieces ▸ List.mem_cons_self) hin
            · exact ih 0 (hpieces ▸ List.mem_cons_of_mem _ h)

/-- **The pieces of a text have no separator in them.** -/
theorem not_infix_of_mem_splitOn (hs : separator ≠ []) (h : piece ∈ splitOn separator t) :
    ¬ separator <:+: piece := not_infix_of_mem_splitFrom hs 0 t h

theorem append_infix_joinWith (h : piece ∈ pieces) :
    piece ++ separator <:+: joinWith separator pieces ++ separator := by
  induction pieces with
  | nil => simp at h
  | cons first rest ih =>
      cases rest with
      | nil =>
          obtain rfl := List.mem_singleton.1 h
          exact List.infix_refl _
      | cons next rest =>
          rw [joinWith_cons_cons, List.append_assoc]
          rcases List.mem_cons.1 h with rfl | h
          · exact (List.prefix_append _ _).isInfix
          · exact (ih h).trans (List.suffix_append _ _).isInfix

/-- **The pieces of a text stand before separators**, the last one too if one is added. -/
theorem append_infix_of_mem_splitOn (hs : separator ≠ []) (h : piece ∈ splitOn separator t) :
    piece ++ separator <:+: t ++ separator := by
  have hjoin : piece ++ separator <:+: joinWith separator (splitOn separator t) ++ separator :=
    append_infix_joinWith h
  rwa [joinWith_splitOn hs] at hjoin

end Text

end GitHooks
