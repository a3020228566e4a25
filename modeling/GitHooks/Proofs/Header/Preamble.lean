/-
**What stands behind a preamble.**

The lines that have to stay first in a file, a shebang and an encoding pragma, are the lines that
the scan of its header passes over before anything else.  So a text put behind the preamble and
one blank line is scanned as if the file began with it.

Main definitions:

* `Header.preambleOf` — the preamble of a file, with the blank line behind it.

Main results:

* `Header.length_preambleOf` — where the text behind a preamble begins;
* `Header.segments_take_append` — the scan begins behind a preamble and blank lines;
* `Header.segments_preambleOf` — the segments of a text behind a preamble.
-/

import GitHooks.Notice.Edit
import GitHooks.Proofs.Header.Segments

set_option relaxedAutoImplicit false
set_option autoImplicit false

namespace GitHooks

namespace Header

open Text
open Notice (preambleLines)

variable {language : Language} {lines tail : List Text}

/-- The preamble of a file, with the blank line behind it. -/
def preambleOf (lines : List Text) : List Text := preambleLines (lines.take (preambleLength lines))

theorem preambleOf_of_eq_zero (h : preambleLength lines = 0) : preambleOf lines = [] := by
  rw [preambleOf, h, List.take_zero]
  rfl

theorem preambleOf_of_ne_zero (h : preambleLength lines ≠ 0) :
    preambleOf lines = lines.take (preambleLength lines) ++ [[]] := by
  have hne : (lines.take (preambleLength lines)).isEmpty = false := by
    have := preambleLength_le lines
    cases ht : lines.take (preambleLength lines) with
    | nil =>
        have := congrArg List.length ht
        simp only [List.length_take, List.length_nil] at this
        omega
    | cons line rest => rfl
  rw [preambleOf, preambleLines, hne, if_neg Bool.false_ne_true]

theorem length_preambleOf (lines : List Text) :
    (preambleOf lines).length
      = if preambleLength lines = 0 then 0 else preambleLength lines + 1 := by
  split
  · next h => rw [preambleOf_of_eq_zero h, List.length_nil]
  · next h =>
    have := preambleLength_le lines
    rw [preambleOf_of_ne_zero h, List.length_append, List.length_take]
    simp only [List.length_singleton]
    omega

/-- The preamble stays where it is. -/
theorem take_preambleOf (lines tail : List Text) :
    (preambleOf lines ++ tail).take (preambleLength lines) = lines.take (preambleLength lines) := by
  by_cases hp : preambleLength lines = 0
  · rw [hp, List.take_zero, List.take_zero]
  · have hlen : (lines.take (preambleLength lines)).length = preambleLength lines :=
      List.length_take_of_le (preambleLength_le lines)
    rw [preambleOf_of_ne_zero hp, List.append_assoc, List.take_left' hlen]

/-- The scan of a header passes over the preamble. -/
theorem isPassed_of_mem_preamble {line : Text}
    (h : line ∈ (lines.take (preambleLength lines)).drop (beginsWithShebang lines).toNat) :
    isPassed line = true := by
  have hdrop : (lines.take (preambleLength lines)).drop (beginsWithShebang lines).toNat
      = (lines.drop (beginsWithShebang lines).toNat).take
          (beginsWithPragma (lines.drop (beginsWithShebang lines).toNat)).toNat := by
    rw [List.drop_take, preambleLength, Nat.add_sub_cancel_left]
  rw [hdrop] at h
  cases hl : lines.drop (beginsWithShebang lines).toNat with
  | nil => simp [hl] at h
  | cons first rest =>
      rw [hl] at h
      cases hp : beginsWithPragma (first :: rest) with
      | false => simp [hp] at h
      | true =>
          obtain rfl : line = first := by simpa [hp] using h
          rw [isPassed, Bool.or_eq_true]
          exact Or.inr hp

/-- The scan of a file that has the preamble of another and then blank lines begins behind these. -/
theorem segments_take_append (language : Language) {blanks : List Text}
    (hblanks : ∀ line ∈ blanks, isBlank line = true)
    (hshebang : beginsWithShebang (lines.take (preambleLength lines) ++ blanks ++ tail)
      = beginsWithShebang lines) :
    segments language (lines.take (preambleLength lines) ++ blanks ++ tail)
      = segmentsFrom language false (preambleLength lines + blanks.length) tail := by
  have hle := preambleLength_le lines
  have hfirst : (beginsWithShebang lines).toNat ≤ preambleLength lines := Nat.le_add_right _ _
  have hlength : (lines.take (preambleLength lines)).length = preambleLength lines :=
    List.length_take_of_le hle
  have hdrop : (lines.take (preambleLength lines) ++ blanks ++ tail).drop
        (beginsWithShebang lines).toNat
      = (lines.take (preambleLength lines)).drop (beginsWithShebang lines).toNat ++ blanks
        ++ tail := by
    rw [List.append_assoc, List.drop_append_of_le_length (by omega), List.append_assoc]
  rw [segments, hshebang, hdrop, segmentsFrom_append_of_isPassed]
  · rw [List.length_append, List.length_drop, hlength]
    congr 1
    omega
  · intro line hmem
    rcases List.mem_append.1 hmem with hmem | hmem
    · exact isPassed_of_mem_preamble hmem
    · rw [isPassed, hblanks line hmem]
      rfl

/-- **The segments of a text behind a preamble** are its own, further down. -/
theorem segments_preambleOf (language : Language)
    (h : preambleLength lines = 0 → beginsWithShebang tail = false) :
    segments language (preambleOf lines ++ tail)
      = segmentsFrom language false (preambleOf lines).length tail := by
  by_cases hp : preambleLength lines = 0
  · rw [preambleOf_of_eq_zero hp, List.nil_append, segments, h hp]
    rfl
  · have hle := preambleLength_le lines
    -- a preamble that is not empty has the first line of the file
    have hshebang : beginsWithShebang (lines.take (preambleLength lines) ++ [[]] ++ tail)
        = beginsWithShebang lines := by
      cases lines with
      | nil => simp only [List.length_nil] at hle; omega
      | cons line lines =>
          obtain ⟨k, hk⟩ := Nat.exists_eq_succ_of_ne_zero hp
          rw [hk]
          rfl
    have hblanks : ∀ line ∈ [([] : Text)], isBlank line = true := by simp [isBlank]
    rw [length_preambleOf, if_neg hp, preambleOf_of_ne_zero hp]
    exact segments_take_append language hblanks hshebang

end Header

end GitHooks
