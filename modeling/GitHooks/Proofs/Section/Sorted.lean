/-
**What a sorted file is.**

Sorting takes the runs of a file one by one: the header of a run is kept, its body is sorted, and
the results stand in the order of the runs with single empty lines between them.  Nothing but the
separators is blank in the output, so the runs are found in it again.

Main definitions:

* `Section.sortedRun` — what becomes of a run.

Main results:

* `Section.lines_sortSections` — a sorted file is its sorted runs, separated by empty lines;
* `Section.runs_sortSections` — the runs of a sorted file are the sorted runs;
* `Section.head_sortSections`, `Section.last_sortSections` — it neither begins nor ends with a
  blank line;
* `Section.sortSections_plain` — sorting without dropping lines.
-/

import GitHooks.Proofs.Section.Runs
import GitHooks.Proofs.Section.StableSort
import Mathlib.Data.List.Perm.Basic

set_option relaxedAutoImplicit false
set_option autoImplicit false

namespace GitHooks

namespace Section

open Text

variable {marker line : Text} {unique : Bool} {run lines : List Text}

/-! ### Dropping repeats -/

theorem dropRepeatsOf_sublist (marker kept : Text) (body : List Text) :
    (dropRepeatsOf marker kept body).1.Sublist body := by
  induction body generalizing kept with
  | nil => exact List.Sublist.refl _
  | cons line body ih =>
      rw [dropRepeatsOf]
      split
      · exact (ih kept).cons line
      · exact (ih line).cons_cons line

theorem dropRepeats_sublist (marker : Text) (body : List Text) :
    (dropRepeats marker body).1.Sublist body := by
  cases body with
  | nil => exact List.Sublist.refl _
  | cons line body => exact (dropRepeatsOf_sublist marker line body).cons_cons line

theorem dropRepeats_eq_nil_iff {body : List Text} :
    (dropRepeats marker body).1 = [] ↔ body = [] := by
  cases body with
  | nil => simp [dropRepeats]
  | cons line body => simp [dropRepeats]

/-! ### Sorted runs -/

/-- A body sorted, and without repeats when `unique` asks for that. -/
def sortedBody (marker : Text) (unique : Bool) (body : List Text) : List Text :=
  if unique then (dropRepeats marker (sortBody marker body)).1 else sortBody marker body

theorem sortedBody_eq_nil_iff {body : List Text} :
    sortedBody marker unique body = [] ↔ body = [] := by
  have hsort : sortBody marker body = [] ↔ body = [] := by
    rw [← List.length_eq_zero_iff, (sortBody_perm marker body).length_eq, List.length_eq_zero_iff]
  cases unique with
  | false => exact hsort
  | true => exact dropRepeats_eq_nil_iff.trans hsort

theorem mem_of_mem_sortedBody {body : List Text} (h : line ∈ sortedBody marker unique body) :
    line ∈ body := by
  cases unique with
  | false => exact mem_sortBody.1 h
  | true => exact mem_sortBody.1 ((dropRepeats_sublist _ _).subset h)

theorem fst_sorted (marker : Text) (unique : Bool) (part : Section) :
    (sorted marker unique part).1 = ⟨part.header, sortedBody marker unique part.body⟩ := by
  cases unique <;> rfl

/-- What becomes of a run: the comment lines it begins with, and the others sorted. -/
def sortedRun (marker : Text) (unique : Bool) (run : List Text) : List Text :=
  run.takeWhile (isComment marker) ++ sortedBody marker unique (run.dropWhile (isComment marker))

theorem lines_sorted (marker : Text) (unique : Bool) (run : List Text) :
    (sorted marker unique (ofRun marker run)).1.lines = sortedRun marker unique run := by
  rw [fst_sorted]
  rfl

theorem mem_of_mem_sortedRun (h : line ∈ sortedRun marker unique run) : line ∈ run := by
  rcases List.mem_append.1 h with hheader | hbody
  · exact (List.takeWhile_prefix _).subset hheader
  · exact (List.dropWhile_suffix _).subset (mem_of_mem_sortedBody hbody)

theorem IsRun.sortedRun (hrun : IsRun run) (marker : Text) (unique : Bool) :
    IsRun (sortedRun marker unique run) := fun line hline => hrun line (mem_of_mem_sortedRun hline)

theorem sortedRun_eq_nil_iff : sortedRun marker unique run = [] ↔ run = [] := by
  rw [Section.sortedRun, List.append_eq_nil_iff, sortedBody_eq_nil_iff, ← List.append_eq_nil_iff,
    List.takeWhile_append_dropWhile]

/-! ### Sorted files -/

/-- **A sorted file is its sorted runs**, separated by single empty lines. -/
theorem lines_sortSections (lines : List Text) (unique : Bool) (marker : Text) :
    (sortSections lines unique marker).lines
      = separated ((runs lines).map (sortedRun marker unique)) := by
  have hlines : (sortSections lines unique marker).lines
      = join ((runs lines).map fun run => (sorted marker unique (ofRun marker run)).1) := by
    simp only [sortSections, split_eq, List.map_map, Function.comp_def]
  rw [hlines, join_eq, List.map_map, separated]
  exact congrArg _ (List.map_congr_left fun run _ => lines_sorted marker unique run)

theorem changed_sortSections (lines : List Text) (unique : Bool) (marker : Text) :
    (sortSections lines unique marker).changed = false
      ↔ (sortSections lines unique marker).lines = lines := by
  simp [sortSections]

/-- The sorted runs of a file are runs again. -/
theorem sortedRuns_isRun {part : List Text}
    (hpart : part ∈ (runs lines).map (sortedRun marker unique)) : part ≠ [] ∧ IsRun part := by
  obtain ⟨run, hrun, rfl⟩ := List.mem_map.1 hpart
  exact ⟨mt sortedRun_eq_nil_iff.1 (ne_nil_of_mem_runs hrun),
    (isRun_of_mem_runs hrun).sortedRun marker unique⟩

/-- **The runs of a sorted file are the sorted runs.** -/
theorem runs_sortSections (lines : List Text) (unique : Bool) (marker : Text) :
    runs (sortSections lines unique marker).lines = (runs lines).map (sortedRun marker unique) := by
  rw [lines_sortSections]
  exact runs_separated fun part hpart => sortedRuns_isRun hpart

/-- The lines of a sorted file are empty ones and lines that it had before. -/
theorem mem_of_mem_sortSections (hline : line ∈ (sortSections lines unique marker).lines) :
    line = [] ∨ line ∈ lines ∧ isBlank line = false := by
  rw [lines_sortSections] at hline
  rcases mem_of_mem_separated hline with hnil | ⟨part, hpart, hmem⟩
  · exact .inl hnil
  · obtain ⟨run, hrun, rfl⟩ := List.mem_map.1 hpart
    exact .inr (mem_of_mem_runs hrun (mem_of_mem_sortedRun hmem))

/-- Nothing is left of a file by sorting exactly when all its lines are blank. -/
theorem sortSections_eq_nil_iff :
    (sortSections lines unique marker).lines = [] ↔ ∀ line ∈ lines, isBlank line = true := by
  rw [lines_sortSections, separated_eq_nil_iff fun part hpart => (sortedRuns_isRun hpart).1,
    List.map_eq_nil_iff, runs_eq_nil_iff]

/-- A sorted file does not begin with a blank line. -/
theorem head_sortSections (hline : (sortSections lines unique marker).lines.head? = some line) :
    isBlank line = false := by
  rw [lines_sortSections] at hline
  obtain ⟨part, hpart, hmem⟩ :=
    exists_head_separated (fun part hpart => (sortedRuns_isRun hpart).1) hline
  exact (sortedRuns_isRun hpart).2 line hmem

/-- A sorted file does not end with a blank line. -/
theorem last_sortSections (hline : (sortSections lines unique marker).lines.getLast? = some line) :
    isBlank line = false := by
  rw [lines_sortSections] at hline
  obtain ⟨part, hpart, hmem⟩ :=
    exists_last_separated (fun part hpart => (sortedRuns_isRun hpart).1) hline
  exact (sortedRuns_isRun hpart).2 line hmem

/-! ### Sorting without dropping lines -/

theorem sortedRun_perm (marker : Text) (run : List Text) :
    (sortedRun marker false run).Perm run := by
  have hbody := (sortBody_perm marker (run.dropWhile (isComment marker))).append_left
    (run.takeWhile (isComment marker))
  rwa [List.takeWhile_append_dropWhile] at hbody

/-- Without dropping lines, sorting permutes the lines that are not blank. -/
theorem filter_sortSections_perm (lines : List Text) (marker : Text) :
    ((sortSections lines false marker).lines.filter (!isBlank ·)).Perm
      (lines.filter (!isBlank ·)) := by
  rw [← flatten_runs, ← flatten_runs, runs_sortSections, ← List.flatMap_def,
    ← List.flatMap_id']
  exact List.Perm.flatMap_left _ fun run _ => sortedRun_perm marker run

/-- **Sorting without dropping lines.**  The runs of the file, cut at its blank lines, are kept in
order and separated by single empty lines; each is its longest beginning of comment lines and then
the one stable sort of the rest.  So the output neither begins nor ends with a blank line, the
lines that are not blank are permuted, nothing is remarked on, and the file counts as changed
exactly when its lines are others. -/
theorem sortSections_plain (lines : List Text) (marker : Text) :
    (sortSections lines false marker).lines
        = [[]].intercalate (((lines.splitOnP isBlank).filter (· ≠ [])).map fun run =>
            run.takeWhile (isComment marker) ++ sortBody marker (run.dropWhile (isComment marker)))
      ∧ (∀ body sorted, IsStableSort marker body sorted ↔ sorted = sortBody marker body)
      ∧ (∀ line, (sortSections lines false marker).lines.head? = some line →
          isBlank line = false)
      ∧ (∀ line, (sortSections lines false marker).lines.getLast? = some line →
          isBlank line = false)
      ∧ ((sortSections lines false marker).lines.filter (!isBlank ·)).Perm
          (lines.filter (!isBlank ·))
      ∧ (sortSections lines false marker).remarks = []
      ∧ ((sortSections lines false marker).changed = false
          ↔ (sortSections lines false marker).lines = lines) := by
  refine ⟨lines_sortSections lines false marker, fun body sorted => isStableSort_iff,
    fun line => head_sortSections, fun line => last_sortSections,
    filter_sortSections_perm lines marker, ?_, changed_sortSections lines false marker⟩
  simp [sortSections, sorted]

end Section

end GitHooks
