/-
**Sections are the runs between blank lines.**

The lines of a file are read one by one, and what has been read of a section is kept until a blank
line or the end of the file ends it.  `Reading.behind` computes this state from the lines of the
run alone, without reading them: a line that is not blank takes the state behind a run to the state
behind the longer run, and a blank line gives the section made of the run.  So the sections are
those made of the pieces that the blank lines cut the file into, without the empty pieces.

Main definitions:

* `Section.runs` — the pieces between blank lines that have a line in them;
* `Section.ofRun` — the section made of a run;
* `Section.Reading.behind` — the state behind the lines of a run.

Main results:

* `Section.split_eq` — the sections of a file are those made of its runs;
* `Section.flatten_runs` — the runs hold the lines that are not blank, in order;
* `Section.runs_separated` — runs that are separated by empty lines are found again.
-/

import GitHooks.Section
import Mathlib.Data.List.TakeWhile

set_option relaxedAutoImplicit false
set_option autoImplicit false

namespace GitHooks

namespace Section

open Text

variable {marker line : Text} {run lines rest : List Text}

/-! ### Runs -/

/-- The longest runs of lines that are not blank: blank lines cut the file, and the empty pieces
are left out. -/
def runs (lines : List Text) : List (List Text) := (lines.splitOnP isBlank).filter (· ≠ [])

/-- Lines none of which is blank. -/
def IsRun (run : List Text) : Prop := ∀ line ∈ run, isBlank line = false

theorem isRun_nil : IsRun [] := by simp [IsRun]

theorem IsRun.concat (hrun : IsRun run) (hline : isBlank line = false) : IsRun (run ++ [line]) := by
  intro other hother
  rcases List.mem_append.1 hother with hother | hother
  · exact hrun other hother
  · rwa [List.mem_singleton.1 hother]

theorem runs_of_isRun (hrun : IsRun run) : runs run = [run].filter (· ≠ []) := by
  rw [runs, List.splitOnP_eq_singleton hrun]

theorem runs_append_cons (hrun : IsRun run) (hline : isBlank line = true) (rest : List Text) :
    runs (run ++ line :: rest) = [run].filter (· ≠ []) ++ runs rest := by
  rw [runs, List.splitOnP_append_cons_of_forall_mem hrun _ hline, ← List.singleton_append,
    List.filter_append, runs]

/-- The pieces between the items with a property hold the other items. -/
theorem flatten_splitOnP {α : Type} (p : α → Bool) (items : List α) :
    (items.splitOnP p).flatten = items.filter (!p ·) := by
  induction items with
  | nil => rfl
  | cons item items ih =>
      rw [List.splitOnP_cons_eq_if_modifyHead]
      obtain ⟨piece, pieces, hpieces⟩ := List.exists_cons_of_ne_nil (List.splitOnP_ne_nil p items)
      rw [hpieces] at ih ⊢
      by_cases hp : p item = true
      · simpa [hp] using ih
      · simpa [hp] using ih

/-- **The runs of a file hold its lines that are not blank**, in order. -/
theorem flatten_runs (lines : List Text) : (runs lines).flatten = lines.filter (!isBlank ·) := by
  rw [runs, List.flatten_filter_ne_nil, flatten_splitOnP]

theorem ne_nil_of_mem_runs (hrun : run ∈ runs lines) : run ≠ [] := by
  simpa using (List.mem_filter.1 hrun).2

/-- A file has no runs exactly when all its lines are blank. -/
theorem runs_eq_nil_iff : runs lines = [] ↔ ∀ line ∈ lines, isBlank line = true := by
  have hflat : (runs lines).flatten = [] ↔ ∀ line ∈ lines, isBlank line = true := by
    rw [flatten_runs]
    simp
  rw [← hflat]
  constructor
  · intro hnil
    rw [hnil, List.flatten_nil]
  · intro hnil
    refine List.eq_nil_iff_forall_not_mem.2 ?_
    intro run hrun
    exact ne_nil_of_mem_runs hrun (List.flatten_eq_nil_iff.1 hnil run hrun)

/-- A run holds lines of the file that are not blank. -/
theorem mem_of_mem_runs (hrun : run ∈ runs lines) (hline : line ∈ run) :
    line ∈ lines ∧ isBlank line = false := by
  have hmem : line ∈ lines.filter (!isBlank ·) :=
    flatten_runs lines ▸ List.mem_flatten.2 ⟨run, hrun, hline⟩
  simpa using hmem

theorem isRun_of_mem_runs (hrun : run ∈ runs lines) : IsRun run :=
  fun _ hline => (mem_of_mem_runs hrun hline).2

/-! ### Reading line by line -/

/-- The section made of a run: the comment lines it begins with are the header. -/
def ofRun (marker : Text) (run : List Text) : Section :=
  ⟨run.takeWhile (isComment marker), run.dropWhile (isComment marker)⟩

@[simp] theorem lines_ofRun (marker : Text) (run : List Text) : (ofRun marker run).lines = run := by
  simp [ofRun, Section.lines]

theorem ofRun_of_comments (hrun : ∀ line ∈ run, isComment marker line = true) :
    ofRun marker run = ⟨run, []⟩ := by
  rw [ofRun, List.takeWhile_eq_self_iff.2 hrun, List.dropWhile_eq_nil_iff.2 hrun]

theorem ofRun_append_cons {comments : List Text} {code : Text}
    (hcomments : ∀ line ∈ comments, isComment marker line = true)
    (hcode : isComment marker code = false) (rest : List Text) :
    ofRun marker (comments ++ code :: rest) = ⟨comments, code :: rest⟩ := by
  rw [ofRun, List.takeWhile_append_of_pos hcomments, List.dropWhile_append_of_pos hcomments]
  simp [hcode]

/-- A run consists of comment lines, or begins with some that a line of another kind follows. -/
theorem comments_or_code (marker : Text) (run : List Text) :
    (∀ line ∈ run, isComment marker line = true) ∨
      ∃ comments code rest, run = comments ++ code :: rest ∧
        (∀ line ∈ comments, isComment marker line = true) ∧ isComment marker code = false := by
  induction run with
  | nil => exact .inl (by simp)
  | cons line run ih =>
      cases hline : isComment marker line with
      | false => exact .inr ⟨[], line, run, rfl, by simp, hline⟩
      | true =>
          rcases ih with hall | ⟨comments, code, rest, rfl, hcomments, hcode⟩
          · exact .inl (List.forall_mem_cons.2 ⟨hline, hall⟩)
          · exact .inr ⟨line :: comments, code, rest, rfl,
              List.forall_mem_cons.2 ⟨hline, hcomments⟩, hcode⟩

namespace Reading

/-- The state behind the lines of a run. -/
def behind (marker : Text) (run : List Text) : Reading where
  place :=
    if run = [] then .beforeSection else if run.all (isComment marker) then .inHeader else .inBody
  current := ofRun marker run

theorem behind_of_comments (hrun : ∀ line ∈ run, isComment marker line = true) (hne : run ≠ []) :
    behind marker run = ⟨.inHeader, ⟨run, []⟩⟩ := by
  rw [behind, if_neg hne, if_pos (List.all_eq_true.2 hrun), ofRun_of_comments hrun]

theorem behind_append_cons {comments : List Text} {code : Text}
    (hcomments : ∀ line ∈ comments, isComment marker line = true)
    (hcode : isComment marker code = false) (rest : List Text) :
    behind marker (comments ++ code :: rest) = ⟨.inBody, ⟨comments, code :: rest⟩⟩ := by
  rw [behind, ofRun_append_cons hcomments hcode]
  simp [hcode]

/-- **A line that is not blank lengthens the run.** -/
theorem push_behind (marker : Text) (run : List Text) (line : Text) :
    (behind marker run).push marker line = behind marker (run ++ [line]) := by
  rcases comments_or_code marker run with hall | ⟨comments, code, rest, rfl, hcomments, hcode⟩
  · cases hline : isComment marker line with
    | true =>
        have hall' : ∀ other ∈ run ++ [line], isComment marker other = true := by
          simpa [hline, or_imp, forall_and] using hall
        rw [behind_of_comments hall' (by simp)]
        by_cases hne : run = []
        · subst hne
          simp [behind, push, ofRun, hline]
        · rw [behind_of_comments hall hne]
          simp [push, hline]
    | false =>
        rw [behind_append_cons hall hline]
        by_cases hne : run = []
        · subst hne
          simp [behind, push, ofRun, hline]
        · rw [behind_of_comments hall hne]
          simp [push, hline]
  · rw [behind_append_cons hcomments hcode, List.append_assoc, List.cons_append,
      behind_append_cons hcomments hcode]
    rfl

/-- **The end of a run gives the section made of it.** -/
theorem finish_behind (marker : Text) (run : List Text) :
    (behind marker run).finish = ([run].filter (· ≠ [])).map (ofRun marker) := by
  by_cases hnil : run = []
  · subst hnil
    rfl
  · have hlines := lines_ofRun marker run
    have hne : ¬ ((ofRun marker run).header = [] ∧ (ofRun marker run).body = []) := by
      rintro ⟨hheader, hbody⟩
      rw [Section.lines, hheader, hbody] at hlines
      exact hnil hlines.symm
    simp_all [finish, behind]

/-- The sections behind the lines of a run are those made of the runs of all lines. -/
theorem sections_behind (marker : Text) (hrun : IsRun run) (lines : List Text) :
    (behind marker run).sections marker lines = (runs (run ++ lines)).map (ofRun marker) := by
  induction lines generalizing run with
  | nil => rw [List.append_nil, runs_of_isRun hrun, sections, finish_behind]
  | cons line rest ih =>
      cases hline : isBlank line with
      | true =>
          have hrest : start.sections marker rest = _ := ih isRun_nil
          rw [sections, if_pos hline, finish_behind, hrest, runs_append_cons hrun hline,
            List.map_append, List.nil_append]
      | false =>
          rw [sections, if_neg (by simp [hline]), push_behind, ih (hrun.concat hline),
            List.append_assoc, List.singleton_append]

end Reading

/-- **The sections of a file are those made of its runs.** -/
theorem split_eq (marker : Text) (lines : List Text) :
    split marker lines = (runs lines).map (ofRun marker) :=
  Reading.sections_behind marker isRun_nil lines

/-! ### Separated runs -/

/-- Sections are put together with single empty lines between them. -/
theorem join_eq (parts : List Section) :
    join parts = [[]].intercalate (parts.map Section.lines) := by
  induction parts with
  | nil => rfl
  | cons part rest ih =>
      cases rest with
      | nil => simp [join]
      | cons next rest =>
          rw [join, ih]
          simp only [List.map_cons, List.intercalate_cons_cons, List.append_assoc,
            List.singleton_append]

/-- Runs that are separated by single empty lines. -/
def separated (parts : List (List Text)) : List Text := [[]].intercalate parts

theorem separated_cons_cons (part next : List Text) (rest : List (List Text)) :
    separated (part :: next :: rest) = part ++ [] :: separated (next :: rest) := by
  rw [separated, List.intercalate_cons_cons, List.append_assoc, List.singleton_append, separated]

/-- **Runs are found again** when they are separated by empty lines. -/
theorem runs_separated {parts : List (List Text)}
    (hparts : ∀ part ∈ parts, part ≠ [] ∧ IsRun part) : runs (separated parts) = parts := by
  induction parts with
  | nil => rfl
  | cons part rest ih =>
      obtain ⟨hne, hrun⟩ := hparts part List.mem_cons_self
      cases rest with
      | nil =>
          rw [separated, List.intercalate_singleton, runs_of_isRun hrun]
          simp [hne]
      | cons next rest =>
          have hrest := ih fun other hother => hparts other (List.mem_cons_of_mem _ hother)
          rw [separated_cons_cons, runs_append_cons hrun rfl, hrest]
          simp [hne]

theorem mem_of_mem_separated {parts : List (List Text)} (hline : line ∈ separated parts) :
    line = [] ∨ ∃ part ∈ parts, line ∈ part := by
  induction parts with
  | nil => simp [separated] at hline
  | cons part rest ih =>
      cases rest with
      | nil =>
          rw [separated, List.intercalate_singleton] at hline
          exact .inr ⟨part, List.mem_cons_self, hline⟩
      | cons next rest =>
          rw [separated_cons_cons] at hline
          rcases List.mem_append.1 hline with hline | hline
          · exact .inr ⟨part, List.mem_cons_self, hline⟩
          · rcases List.mem_cons.1 hline with hline | hline
            · exact .inl hline
            · rcases ih hline with hnil | ⟨other, hother, hmem⟩
              · exact .inl hnil
              · exact .inr ⟨other, List.mem_cons_of_mem _ hother, hmem⟩

/-- Runs begin with the first line of the first. -/
theorem exists_head_separated {parts : List (List Text)} (hparts : ∀ part ∈ parts, part ≠ [])
    (hline : (separated parts).head? = some line) : ∃ part ∈ parts, line ∈ part := by
  cases parts with
  | nil => simp [separated] at hline
  | cons part rest =>
      obtain ⟨first, others, rfl⟩ := List.exists_cons_of_ne_nil (hparts part List.mem_cons_self)
      refine ⟨first :: others, List.mem_cons_self, ?_⟩
      cases rest with
      | nil => simp_all [separated]
      | cons next rest => simp_all [separated_cons_cons]

theorem separated_eq_nil_iff {parts : List (List Text)} (hparts : ∀ part ∈ parts, part ≠ []) :
    separated parts = [] ↔ parts = [] := by
  constructor
  · intro hnil
    cases parts with
    | nil => rfl
    | cons part rest =>
        have hne := hparts part List.mem_cons_self
        cases rest with
        | nil => exact absurd (by simpa [separated] using hnil) hne
        | cons next rest => simp [separated_cons_cons] at hnil
  · rintro rfl
    rfl

/-- Runs end with the last line of the last. -/
theorem exists_last_separated {parts : List (List Text)} (hparts : ∀ part ∈ parts, part ≠ [])
    (hline : (separated parts).getLast? = some line) : ∃ part ∈ parts, line ∈ part := by
  induction parts with
  | nil => simp [separated] at hline
  | cons part rest ih =>
      cases rest with
      | nil =>
          rw [separated, List.intercalate_singleton] at hline
          exact ⟨part, List.mem_cons_self, List.mem_of_getLast? hline⟩
      | cons next rest =>
          have hparts' : ∀ part ∈ next :: rest, part ≠ [] :=
            fun other hother => hparts other (List.mem_cons_of_mem _ hother)
          have hne : separated (next :: rest) ≠ [] := mt (separated_eq_nil_iff hparts').1 (by simp)
          have hlast := List.getLast?_eq_some_getLast hne
          rw [separated_cons_cons, List.getLast?_append, List.getLast?_cons_of_ne_nil hne, hlast,
            Option.some_or, ← hlast] at hline
          obtain ⟨other, hother, hmem⟩ := ih hparts' hline
          exact ⟨other, List.mem_cons_of_mem _ hother, hmem⟩

end Section

end GitHooks
