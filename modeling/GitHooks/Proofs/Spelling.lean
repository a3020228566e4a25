/-
**Findings on both sides of a character.**

A word ends where a character stands that is part of no word, and no spelling in the table has such
a character.  So a line falls apart there: its findings are those of the part before, and those of
the part behind with their columns moved.  In particular nothing is found that reaches over the
end of a line, whatever a line is taken to be.

Main definitions:

* `Spelling.Finding.shift` — a finding further to the right.

Main results:

* `Spelling.check_append_cons` — the findings of a line that falls apart.
-/

import GitHooks.Proofs.Spelling.Search
import GitHooks.Proofs.Text.Decimal
import GitHooks.Proofs.Text.Trim

set_option relaxedAutoImplicit false
set_option autoImplicit false

namespace GitHooks

namespace Spelling

open Text

variable {c : Char}

/-! ### Columns -/

/-- A finding further to the right. -/
def Finding.shift (distance : Nat) (finding : Finding) : Finding :=
  { finding with column := finding.column + distance }

theorem Finding.shift_shift (distance distance' : Nat) (finding : Finding) :
    (finding.shift distance).shift distance' = finding.shift (distance + distance') := by
  simp [shift, Nat.add_assoc]

theorem checkRuns_add (column distance : Nat) (rs : List Text) :
    checkRuns (column + distance) rs = (checkRuns column rs).map (Finding.shift distance) := by
  induction rs generalizing column with
  | nil => rfl
  | cons run rest ih =>
      have hrest : checkRuns (column + distance + run.length) rest
          = (checkRuns (column + run.length) rest).map (Finding.shift distance) := by
        rw [← ih, Nat.add_right_comm]
      simp only [checkRuns, hrest]
      cases suggestion? run with
      | none => rfl
      | some suggestion => rfl

/-! ### Findings on both sides -/

/-- The findings of a text that falls apart at a character that is part of no word. -/
theorem checkRuns_append_cons (hc : isWord c = false) (column : Nat) (u t : Text) :
    checkRuns column (runs (u ++ c :: t))
      = checkRuns column (runs u) ++ checkRuns (column + u.length + 1) (runs t) := by
  induction u using word_induction generalizing column with
  | nil => exact checkRuns_runs_cons hc column t
  | gap d u hd ih =>
      rw [List.cons_append, checkRuns_runs_cons hd, checkRuns_runs_cons hd, ih, List.length_cons]
      congr 2
      omega
  | word w u hw hu ih =>
      have hcolumn : column + w.length + u.length + 1 = column + (w ++ u).length + 1 := by
        rw [List.length_append, Nat.add_assoc column]
      rw [List.append_assoc, runs_append hw (startsInWord_append_cons hc hu t), runs_append hw hu,
        checkRuns, checkRuns, ih, hcolumn]
      cases suggestion? w with
      | none => rfl
      | some suggestion => rfl

/-- **The findings of a line that falls apart** are those of its parts, the second moved. -/
theorem check_append_cons (hc : isWord c = false) (u t : Text) :
    check (u ++ c :: t) = check u ++ (check t).map (Finding.shift (u.length + 1)) := by
  rw [check_eq_checkRuns, checkRuns_append_cons hc, check_eq_checkRuns, check_eq_checkRuns,
    ← checkRuns_add, Nat.add_assoc]

/-- A carriage return at the end of a line changes no finding. -/
theorem check_append_return (u : Text) : check (u ++ ['\r']) = check u := by
  rw [check_append_cons (isWord_of_isSpace (by decide))]
  exact List.append_nil _

end Spelling

end GitHooks
