/-
**The sections of a sorted file.**

Nothing marks where a header ends, so a reader of a sorted file finds the end again from the lines
alone.  The blank lines are where they were, between the same runs, so there are as many sections
as before, in the same order.  Within a run the old header is still in front, and it consists of
comment lines; behind it stands the sorted body.  What is read as the header is therefore the old
header together with the comment lines that the sorted body begins with: a comment line in a body
is ordered by what it says, like any other, and may come first.

Main definitions:

* `Section.reread` — the section that is read where a sorted section was written.

Main results:

* `Section.split_lines_sortSections` — the sections of a sorted file are the sections reread;
* `Section.reread_eq_iff` — when a section is reread with the header it had;
* `Section.split_sortSections` — both together, for sorting without dropping lines.
-/

import GitHooks.Proofs.Section.Sorted
import Mathlib.Data.List.Forall2

set_option relaxedAutoImplicit false
set_option autoImplicit false

namespace GitHooks

namespace Section

open Text

variable {marker : Text} {unique : Bool} {part : Section}

/-! ### Rereading a section -/

/-- The section that is read where a sorted section was written. -/
def reread (marker : Text) (unique : Bool) (part : Section) : Section where
  header := part.header ++ (sortedBody marker unique part.body).takeWhile (isComment marker)
  body := (sortedBody marker unique part.body).dropWhile (isComment marker)

theorem lines_reread (marker : Text) (unique : Bool) (part : Section) :
    (reread marker unique part).lines = part.header ++ sortedBody marker unique part.body := by
  rw [Section.lines, reread, List.append_assoc, List.takeWhile_append_dropWhile]

/-- **A sorted run is read as the section of the run, reread**: the header consists of comment
lines, so the search for its end goes on into the sorted body. -/
theorem ofRun_sortedRun (marker : Text) (unique : Bool) (run : List Text) :
    ofRun marker (sortedRun marker unique run) = reread marker unique (ofRun marker run) := by
  have hheader : ∀ line ∈ run.takeWhile (isComment marker), isComment marker line = true :=
    fun line hline => List.mem_takeWhile_imp hline
  rw [ofRun, sortedRun, List.takeWhile_append_of_pos hheader, List.dropWhile_append_of_pos hheader]
  rfl

/-- **The sections of a sorted file** are the sections of the file, reread. -/
theorem split_lines_sortSections (lines : List Text) (unique : Bool) (marker : Text) :
    split marker (sortSections lines unique marker).lines
      = (split marker lines).map (reread marker unique) := by
  rw [split_eq, runs_sortSections, split_eq, List.map_map, List.map_map]
  exact List.map_congr_left fun run _ => ofRun_sortedRun marker unique run

/-! ### Headers that are kept -/

/-- The header grows exactly when the sorted body begins with a comment line. -/
theorem header_reread_eq_iff : (reread marker unique part).header = part.header ↔
    ∀ line, (sortedBody marker unique part.body).head? = some line →
      isComment marker line = false := by
  change part.header ++ _ = part.header ↔ _
  rw [List.append_right_eq_self]
  cases sortedBody marker unique part.body with
  | nil => simp
  | cons first rest => simp [List.takeWhile_cons]

/-- A section that is reread with its header is reread with its sorted body. -/
theorem body_reread (h : (reread marker unique part).header = part.header) :
    (reread marker unique part).body = sortedBody marker unique part.body := by
  have hlines := lines_reread marker unique part
  rw [Section.lines, h] at hlines
  exact List.append_cancel_left hlines

/-- Without dropping lines, rereading permutes the lines of a section. -/
theorem lines_reread_perm (marker : Text) (part : Section) :
    (reread marker false part).lines.Perm part.lines := by
  rw [lines_reread]
  exact (sortBody_perm marker part.body).append_left part.header

/-- **When a section is kept.**  It is reread with the header it had and a permutation of its body
exactly when its sorted body does not begin with a comment line. -/
theorem reread_eq_iff (marker : Text) (part : Section) :
    ((reread marker false part).header = part.header
        ∧ (reread marker false part).body.Perm part.body)
      ↔ ∀ line, (sortBody marker part.body).head? = some line → isComment marker line = false := by
  constructor
  · rintro ⟨hheader, -⟩
    exact header_reread_eq_iff.1 hheader
  · intro hhead
    have hheader : (reread marker false part).header = part.header := header_reread_eq_iff.2 hhead
    refine ⟨hheader, ?_⟩
    rw [body_reread hheader]
    exact sortBody_perm marker part.body

/-- **The sections of a file sorted without dropping lines.**  There are as many as before, in the
same order.  Each has its old header, lengthened by the comment lines that its sorted body begins
with, and the rest of its sorted body; so its lines are permuted.  It has the old header and a
permutation of the old body exactly when the sorted body does not begin with a comment line. -/
theorem split_sortSections (lines : List Text) (marker : Text) :
    List.Forall₂ (fun before after =>
        after.header
            = before.header ++ (sortBody marker before.body).takeWhile (isComment marker)
          ∧ after.body = (sortBody marker before.body).dropWhile (isComment marker)
          ∧ after.lines.Perm before.lines
          ∧ (after.header = before.header ∧ after.body.Perm before.body
            ↔ ∀ line, (sortBody marker before.body).head? = some line →
                isComment marker line = false))
      (split marker lines) (split marker (sortSections lines false marker).lines) := by
  rw [split_lines_sortSections, List.forall₂_map_right_iff]
  refine List.forall₂_same.2 ?_
  intro part _
  exact ⟨rfl, rfl, lines_reread_perm marker part, reread_eq_iff marker part⟩

/-- A comment line that is sorted to the front of a body is read as its header. -/
theorem not_split_sortSections :
    ¬ ∀ (lines : List Text) (marker : Text),
      List.Forall₂ (fun before after => after.header = before.header ∧ after.body.Perm before.body)
        (split marker lines) (split marker (sortSections lines false marker).lines) := by
  intro h
  have hbefore : split "#" ["b", "# a"] = [⟨[], ["b", "# a"]⟩] := by decide
  have hkeys : isOrdered (key "#" "b") (key "#" "# a") = false := by decide
  have hsorted : sortBody "#" ["b", "# a"] = ["# a", "b"] := by
    simpa [sortBody, List.mergeSort, List.merge] using hkeys
  have hheader : (reread "#" false ⟨[], ["b", "# a"]⟩).header = ["# a"] := by
    change [] ++ (sortBody "#" ["b", "# a"]).takeWhile (isComment "#") = _
    rw [hsorted]
    decide
  have hsame := h ["b", "# a"] "#"
  rw [split_lines_sortSections, hbefore, List.map_singleton] at hsame
  cases hsame with
  | cons hfirst _ => exact absurd (hheader.symm.trans hfirst.1) (by decide)

end Section

end GitHooks
