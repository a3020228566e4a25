/-
**Cutting and joining.**

A text cut at a separator and joined with it again is the text it was.  The search behind
`splitOn` counts the characters of a separator that are still to be passed over, so the statement
behind it speaks of a text of which so many characters have been dropped.  Replacing searches in
the same way, and passes over what cannot begin an occurrence.

Main results:

* `Text.joinWith_splitOn` — joining undoes cutting;
* `Text.lines_of_not_mem`, `Text.exists_lines_cons` — the lines of a text without a line feed, and
  the beginning of the first line of any text;
* `Text.replaceAll_append_of_not_mem` — replacing passes over characters that begin no occurrence.
-/

import GitHooks.Proofs.Text.Affix
import GitHooks.Text.Lines

set_option relaxedAutoImplicit false
set_option autoImplicit false

namespace GitHooks

namespace Text

/-! ### Joining -/

theorem joinWith_cons (separator t : Text) {rest : List Text} (h : rest ≠ []) :
    joinWith separator (t :: rest) = t ++ separator ++ joinWith separator rest := by
  cases rest with
  | nil => exact absurd rfl h
  | cons u rest => rfl

theorem joinWith_modifyHead_cons (separator : Text) (c : Char) {pieces : List Text}
    (h : pieces ≠ []) :
    joinWith separator (pieces.modifyHead (c :: ·)) = c :: joinWith separator pieces := by
  cases pieces with
  | nil => exact absurd rfl h
  | cons t rest =>
      cases rest with
      | nil => rfl
      | cons u rest => rfl

/-- The first two pieces may be joined beforehand. -/
theorem joinWith_append_cons (separator t line : Text) (further : List Text) :
    joinWith separator ((t ++ separator ++ line) :: further)
      = joinWith separator (t :: line :: further) := by
  cases further with
  | nil => rfl
  | cons next rest => simp [joinWith_cons_cons, List.append_assoc]

/-! ### Cutting -/

theorem splitFrom_ne_nil (separator : Text) (passing : Nat) (t : Text) :
    splitFrom separator passing t ≠ [] := by
  induction t generalizing passing with
  | nil => simp [splitFrom]
  | cons c t ih =>
      cases passing with
      | succ passing => exact ih passing
      | zero =>
          rw [splitFrom]
          split
          · simp
          · simpa using ih 0

/-- Joining the pieces of a text from which some characters are passed over gives the text without
those characters. -/
theorem joinWith_splitFrom {separator : Text} (hs : separator ≠ []) (passing : Nat) (t : Text)
    (hp : passing ≤ t.length) :
    joinWith separator (splitFrom separator passing t) = t.drop passing := by
  induction t generalizing passing with
  | nil => simp [splitFrom]
  | cons c t ih =>
      cases passing with
      | succ passing => exact ih passing (by simpa using hp)
      | zero =>
          rw [splitFrom]
          split
          · next hc =>
            obtain ⟨rest, hrest⟩ := List.isPrefixOf_iff_prefix.1 hc
            obtain ⟨d, separator, rfl⟩ := List.exists_cons_of_ne_nil hs
            obtain ⟨rfl, rfl⟩ : d = c ∧ separator ++ rest = t := by simpa using hrest
            rw [joinWith_cons _ _ (splitFrom_ne_nil _ _ _), ih _ (by simp)]
            simp
          · rw [joinWith_modifyHead_cons _ _ (splitFrom_ne_nil _ _ _), ih 0 (Nat.zero_le _)]
            rfl

/-- Joining undoes cutting. -/
theorem joinWith_splitOn {separator : Text} (hs : separator ≠ []) (t : Text) :
    joinWith separator (splitOn separator t) = t :=
  joinWith_splitFrom hs 0 t (Nat.zero_le _)

/-! ### Lines -/

theorem splitOn_cons {c : Char} {t : Text} (h : c ≠ '\n') :
    splitOn ['\n'] (c :: t) = (splitOn ['\n'] t).modifyHead (c :: ·) := by
  rw [splitOn, splitFrom, if_neg (by simpa [List.isPrefixOf] using h.symm), splitOn]

theorem splitOn_of_not_mem {t : Text} (h : '\n' ∉ t) : splitOn ['\n'] t = [t] := by
  induction t with
  | nil => rfl
  | cons c t ih =>
      rw [List.mem_cons, not_or] at h
      rw [splitOn_cons (Ne.symm h.1), ih h.2]
      rfl

/-- A text without a line feed is one line. -/
theorem lines_of_not_mem {t : Text} (h : '\n' ∉ t) (ht : t ≠ []) : lines t = [t] := by
  have hs := splitOn_of_not_mem h
  rw [lines]
  change linesOfPieces (splitOn ['\n'] t) = [t]
  rw [hs]
  cases t with
  | nil => exact absurd rfl ht
  | cons c t => rfl

/-- The first line of a text begins with its first character, unless that ends the line. -/
theorem exists_lines_cons {c : Char} (hc : c ≠ '\n') (hr : c ≠ '\r') (t : Text) :
    ∃ u rest, lines (c :: t) = (c :: u) :: rest := by
  change ∃ u rest, linesOfPieces (splitOn ['\n'] (c :: t)) = (c :: u) :: rest
  rw [splitOn_cons hc]
  cases hs : splitOn ['\n'] t with
  | nil => exact absurd hs (splitFrom_ne_nil _ _ _)
  | cons piece pieces =>
      cases pieces with
      | nil => exact ⟨piece, [], rfl⟩
      | cons next pieces =>
          -- a carriage return at the end of the line is not its first character
          have hd : ∃ u, dropReturn (c :: piece) = c :: u := by
            rw [dropReturn]
            cases hp : dropTrailing? "\r" (c :: piece) with
            | none => exact ⟨piece, rfl⟩
            | some u =>
                have ht : c :: piece = u ++ ['\r'] := dropTrailing?_eq_some_iff.1 hp
                cases u with
                | nil => exact absurd (List.cons.inj ht).1 hr
                | cons d u =>
                    obtain ⟨rfl, -⟩ := List.cons.inj ht
                    exact ⟨u, rfl⟩
          obtain ⟨u, hu⟩ := hd
          exact ⟨u, linesOfPieces (next :: pieces), by rw [← hu]; rfl⟩

/-! ### Replacing -/

/-- Replacing passes over characters that are not the first of the piece. -/
theorem replaceAll_append_of_not_mem {c : Char} {piece substitute t : Text} (h : c ∉ t)
    (u : Text) : replaceAll (c :: piece) substitute (t ++ u)
      = t ++ replaceAll (c :: piece) substitute u := by
  induction t with
  | nil => rfl
  | cons d t ih =>
      rw [List.mem_cons, not_or] at h
      have hd : (c :: piece).isPrefixOf (d :: (t ++ u)) = false := by
        simp [List.isPrefixOf, h.1]
      rw [List.cons_append, replaceAll, replaceFrom, hd, if_neg Bool.false_ne_true,
        List.cons_append, ← ih h.2, replaceAll]

end Text

end GitHooks
