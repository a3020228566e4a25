/-
**Sorting a file a second time.**

Sorted lines are left alone by a second sort, but a second run starts from the text of the file.
What it reads are the sorted lines where the layout of the file carries them.  That is so in every
file whose last line is ended, as long as a line is left: with none, the ending that is written
back stands for an empty line, which is dropped again by every run, so that no run passes.  In a
file whose last line is open, a stray carriage return or line feed can be read as an ending when
its line has moved; without such lines the second run passes.

Main definitions:

* `SortFileContents.sortedFile`, `SortFileContents.contentAfter` — a file sorted, and its text then.

Main results:

* `SortFileContents.run_single` — a run over one file;
* `SortFileContents.settled_of_ended`, `SortFileContents.settled_of_open` — when the sorted lines
  are what a second run reads;
* `SortFileContents.passes_again_iff` — when a second run passes.
-/

import GitHooks.Proofs.Buffer.ReadBack
import GitHooks.Proofs.FileTree.Writing
import GitHooks.Proofs.Hook.SingleFile
import GitHooks.Proofs.Section.Settled

set_option relaxedAutoImplicit false
set_option autoImplicit false

namespace GitHooks

namespace SortFileContents

open Text
open Section

variable {unique : Bool} {path content : Text}

/-! ### The text of a sorted file -/

/-- A file sorted. -/
def sortedFile (unique : Bool) (path content : Text) : Sorted :=
  sortSections (Buffer.parse content).lines unique (CommentStyle.ofPath path).leading

/-- The text of a file when a run is over: it is written only if its lines have changed. -/
def contentAfter (unique : Bool) (path content : Text) : Text :=
  if (sortedFile unique path content).changed then
    ((Buffer.parse content).withLines (sortedFile unique path content).lines).render
  else content

/-- A file that is left alone by a run is left alone by the next. -/
theorem settled_of_unchanged (h : (sortedFile unique path content).changed = false) :
    (sortedFile unique path (contentAfter unique path content)).changed = false := by
  rw [contentAfter, h, if_neg Bool.false_ne_true]
  exact h

/-- Sorted lines that are read back are left alone. -/
theorem settled_of_lines (hchanged : (sortedFile unique path content).changed = true)
    (hlines : (Buffer.parse ((Buffer.parse content).withLines
      (sortedFile unique path content).lines).render).lines
        = (sortedFile unique path content).lines) :
    (sortedFile unique path (contentAfter unique path content)).changed = false := by
  rw [contentAfter, hchanged, if_pos rfl, sortedFile, changed_sortSections, hlines]
  exact sortSections_sortSections _ _ _

/-- A file of which nothing is left but the ending of its last line is never left alone: the ending
is read as that of an empty line. -/
theorem changed_of_ending (newline : Newline) :
    (sortedFile unique path newline.text).changed = true := by
  have hlines : (Buffer.parse newline.text).lines = [[]] := by
    cases newline <;> decide
  have hnil : (sortedFile unique path newline.text).lines = [] := by
    rw [sortedFile, hlines, sortSections_eq_nil_iff]
    simp [isBlank]
  rw [← Bool.not_eq_false, sortedFile, changed_sortSections, ← sortedFile, hnil, hlines]
  simp

theorem lines_ne_nil_of_ended (hend : ['\n'] <:+ content) : (Buffer.parse content).lines ≠ [] := by
  have hne : content ≠ [] := by
    rintro rfl
    simp at hend
  rw [Buffer.lines_parse hne]
  exact splitFrom_ne_nil _ _ _

/-- Where the last line is ended, what is written is the sorted lines, each of them ended. -/
theorem withLines_of_ended (hend : ['\n'] <:+ content) (lines : List Text) :
    (Buffer.parse content).withLines lines = ⟨lines, Newline.ofText content, true⟩ := by
  have hfinal : (Buffer.parse content).finalNewline = true := endsWith_iff.2 hend
  rw [Buffer.withLines, hfinal]
  rfl

/-- Where the last line is ended and a line is not blank, the sorted lines are read back. -/
theorem settled_of_line {line : Text} (hend : ['\n'] <:+ content)
    (hline : line ∈ (Buffer.parse content).lines) (hblank : isBlank line = false) :
    (sortedFile unique path (contentAfter unique path content)).changed = false := by
  cases hchanged : (sortedFile unique path content).changed with
  | false => exact settled_of_unchanged hchanged
  | true =>
      refine settled_of_lines hchanged ?_
      rw [withLines_of_ended hend]
      refine Buffer.lines_parse_ended ?_ ?_
      · intro hnil
        rw [sortSections_eq_nil_iff.1 hnil line hline] at hblank
        exact Bool.noConfusion hblank
      · intro other hother
        rcases mem_of_mem_sortSections hother with rfl | ⟨hmem, -⟩
        · exact Newline.IsLine.of_lf ⟨List.not_mem_nil, by simp⟩ _
        · exact Buffer.isLine_of_mem_parse hend hmem

/-- Where the last line is ended and all lines are blank, nothing but the ending is left. -/
theorem contentAfter_of_blank (hend : ['\n'] <:+ content)
    (hall : ∀ line ∈ (Buffer.parse content).lines, isBlank line = true) :
    contentAfter unique path content = (Newline.ofText content).text := by
  have hnil : (sortedFile unique path content).lines = [] := sortSections_eq_nil_iff.2 hall
  have hchanged : (sortedFile unique path content).changed = true := by
    rw [← Bool.not_eq_false, sortedFile, changed_sortSections, ← sortedFile, hnil]
    exact fun h => lines_ne_nil_of_ended hend h.symm
  rw [contentAfter, hchanged, if_pos rfl, withLines_of_ended hend, hnil]
  rfl

/-- **Where the last line is ended**, the sorted lines are read back, unless none is left. -/
theorem settled_of_ended (hend : ['\n'] <:+ content) :
    (sortedFile unique path (contentAfter unique path content)).changed = false
      ↔ ∃ line ∈ (Buffer.parse content).lines, isBlank line = false := by
  by_cases hblank : ∃ line ∈ (Buffer.parse content).lines, isBlank line = false
  · refine iff_of_true ?_ hblank
    obtain ⟨line, hline, hnot⟩ := hblank
    exact settled_of_line hend hline hnot
  · refine iff_of_false ?_ hblank
    have hall : ∀ line ∈ (Buffer.parse content).lines, isBlank line = true := by
      intro line hline
      rw [← Bool.not_eq_false]
      exact fun hnot => hblank ⟨line, hline, hnot⟩
    rw [contentAfter_of_blank hend hall, changed_of_ending]
    exact Bool.noConfusion

/-- **Where the last line is open**, the sorted lines are read back if none of them that is not
blank has a line feed in it or ends with a carriage return. -/
theorem settled_of_open (hend : ¬ ['\n'] <:+ content)
    (hlines : ∀ line ∈ (Buffer.parse content).lines, isBlank line = false →
      '\n' ∉ line ∧ ¬ ['\r'] <:+ line) :
    (sortedFile unique path (contentAfter unique path content)).changed = false := by
  cases hchanged : (sortedFile unique path content).changed with
  | false => exact settled_of_unchanged hchanged
  | true =>
      have hfinal : (Buffer.parse content).finalNewline = false := endsWith_eq_false_iff.2 hend
      have hbuffer : (Buffer.parse content).withLines (sortedFile unique path content).lines
          = ⟨(sortedFile unique path content).lines, (Buffer.parse content).newline, false⟩ := by
        rw [Buffer.withLines, hfinal]
      refine settled_of_lines hchanged ?_
      rw [hbuffer]
      refine Buffer.lines_parse_open _ ?_ ?_
      · intro line hline
        rcases mem_of_mem_sortSections hline with rfl | ⟨hmem, hblank⟩
        · exact ⟨List.not_mem_nil, by simp⟩
        · exact hlines line hmem hblank
      · intro hlast
        exact absurd (last_sortSections hlast) (by decide)

/-! ### Runs -/

section Runs

variable {site : Site} {tree : FileTree} {arguments : List Text} {given : CommandLine.Given}

/-- What the hook makes of a file: the verdict depends on whether its lines have changed. -/
theorem judge_eq (unique : Bool) (path content : Text) :
    ∃ remarks, judge unique path (.ok content) = .ok ⟨remarks,
      if (sortedFile unique path content).changed then
        .modified (contentAfter unique path content) else .unchanged⟩ := by
  have hjudge : judge unique path (.ok content)
      = if (sortedFile unique path content).changed then
          .ok ⟨(sortedFile unique path content).remarks.map fun remark => .warning remark.message,
            .modified ((Buffer.parse content).withLines
              (sortedFile unique path content).lines).render⟩
        else .ok ⟨(sortedFile unique path content).remarks.map fun remark =>
            .warning remark.message, .unchanged⟩ := rfl
  refine ⟨(sortedFile unique path content).remarks.map fun remark => .warning remark.message, ?_⟩
  cases hchanged : (sortedFile unique path content).changed with
  | false =>
      rw [hjudge, hchanged]
      rfl
  | true =>
      rw [hjudge, contentAfter, hchanged]
      rfl

/-- **A run over one file**: the file is written exactly when its lines have changed, and then its
path is printed and the run fails. -/
theorem run_single (hgiven : CommandLine.parse grammar arguments = .ok given)
    (hunique : given.has "unique" = unique) (hpath : given.operands = [path])
    (hread : tree.read site.directory path = .ok content) :
    ∃ tree' report, Hook.sortFileContents.run site tree arguments = .finished tree' report
      ∧ tree'.read site.directory path = .ok (contentAfter unique path content)
      ∧ ((sortedFile unique path content).changed = false → tree' = tree)
      ∧ report.failing = (sortedFile unique path content).changed
      ∧ report.output = if (sortedFile unique path content).changed then
          [Path.shown site.path path] else [] := by
  obtain ⟨remarks, hjudge⟩ := judge_eq unique path content
  have hprepare : (hook given).prepare site tree = .ok (judge unique) := by
    rw [← hunique]
    rfl
  refine ⟨_, _, Hook.run_single .sortFileContents hgiven rfl hpath hread rfl hprepare, ?_⟩
  rw [hjudge]
  refine ⟨?_, ?_, ?_, ?_⟩
  · cases hchanged : (sortedFile unique path content).changed with
    | false =>
        rw [contentAfter, hchanged]
        exact hread
    | true => exact FileTree.read_write hread _
  · intro hchanged
    rw [hchanged]
    rfl
  · rw [Report.failing_ofJudgement]
    cases (sortedFile unique path content).changed <;> rfl
  · rw [Report.output_ofJudgement]
    cases (sortedFile unique path content).changed <;> rfl

/-- A run over one file passes exactly when sorting leaves the lines of the file alone. -/
theorem passes_iff (hgiven : CommandLine.parse grammar arguments = .ok given)
    (hunique : given.has "unique" = unique) (hpath : given.operands = [path])
    (hread : tree.read site.directory path = .ok content) :
    Hook.sortFileContents.Passes site tree arguments
      ↔ (sortedFile unique path content).changed = false := by
  obtain ⟨tree', report, hrun, -, htree, hfailing, houtput⟩ :=
    run_single hgiven hunique hpath hread
  constructor
  · rintro ⟨report', hrun', hexit, -⟩
    obtain ⟨rfl, rfl⟩ := Hook.Answer.finished.inj (hrun.symm.trans hrun')
    rw [← hfailing]
    simpa [Hook.Answer.exitCode] using hexit
  · intro hchanged
    obtain rfl := htree hchanged
    refine ⟨report, hrun, ?_, ?_⟩
    · simp [Hook.Answer.exitCode, hfailing, hchanged]
    · simp [houtput, hchanged]

/-- **When a second run passes.**  It passes exactly when the lines that are read from the text
written by the first are left alone by sorting.  In a file whose last line is ended, that is so
exactly when a line is not blank; in any other file, if no line that is not blank has a line feed
in it or ends with a carriage return. -/
theorem passes_again_iff (hgiven : CommandLine.parse grammar arguments = .ok given)
    (hpath : given.operands = [path]) (hread : tree.read site.directory path = .ok content) :
    ∃ tree' report written, Hook.sortFileContents.run site tree arguments = .finished tree' report
      ∧ tree'.read site.directory path = .ok written
      ∧ (Hook.sortFileContents.Passes site tree' arguments
          ↔ (sortSections (Buffer.parse written).lines (given.has "unique")
              (CommentStyle.ofPath path).leading).lines = (Buffer.parse written).lines)
      ∧ (endsWith content "\n" = true → (Hook.sortFileContents.Passes site tree' arguments
          ↔ ∃ line ∈ (Buffer.parse content).lines, isBlank line = false))
      ∧ (endsWith content "\n" = false →
          (∀ line ∈ (Buffer.parse content).lines, isBlank line = false →
            '\n' ∉ line ∧ endsWith line "\r" = false) →
          Hook.sortFileContents.Passes site tree' arguments) := by
  obtain ⟨tree', report, hrun, hread', -⟩ := run_single hgiven rfl hpath hread
  have hpasses := passes_iff hgiven rfl hpath hread'
  refine ⟨tree', report, contentAfter (given.has "unique") path content, hrun, hread', ?_, ?_, ?_⟩
  · rw [hpasses, sortedFile, changed_sortSections]
  · intro hend
    rw [hpasses]
    exact settled_of_ended (endsWith_iff.1 hend)
  · intro hend hlines
    rw [hpasses]
    refine settled_of_open (endsWith_eq_false_iff.1 hend) ?_
    intro line hline hblank
    obtain ⟨hfeed, hreturn⟩ := hlines line hline hblank
    exact ⟨hfeed, endsWith_eq_false_iff.1 hreturn⟩

end Runs

/-! ### One file in the root directory -/

/-- The root directory, outside of any repository. -/
def rootSite : Site := ⟨[], none, 2024, false⟩

/-- A tree with one file, `list`. -/
def lone (content : Text) : FileTree := ⟨[(["list"], .file (encode content))]⟩

theorem read_lone (content : Text) :
    (lone content).read rootSite.directory "list" = .ok content := by
  have hlocate : (lone content).locate rootSite.directory "list" = .ok ["list"] := rfl
  exact FileTree.read_of_fileAt? hlocate rfl

/-- A file of two lines passes when it has been sorted. -/
theorem passes_again_list :
    CommandLine.parse grammar ["-u", "list"] = .ok ⟨[("unique", [])], ["list"]⟩
      ∧ (lone "b\na\n").read rootSite.directory "list" = .ok "b\na\n"
      ∧ ∃ tree' report, Hook.sortFileContents.run rootSite (lone "b\na\n") ["-u", "list"]
          = .finished tree' report
        ∧ Hook.sortFileContents.Passes rootSite tree' ["-u", "list"] := by
  have hread := read_lone "b\na\n"
  have hgiven : CommandLine.parse grammar ["-u", "list"]
      = .ok ⟨[("unique", [])], ["list"]⟩ := by decide
  obtain ⟨tree', report, written, hrun, -, -, hended, -⟩ := passes_again_iff hgiven rfl hread
  refine ⟨hgiven, hread, tree', report, hrun, (hended (by decide)).2 ?_⟩
  exact ⟨"b", by decide, by decide⟩

/-- A file that is one empty line never passes. -/
theorem not_passes_again :
    ¬ ∀ (site : Site) (tree : FileTree) (arguments : List Text) (given : CommandLine.Given)
        (path content : Text),
      CommandLine.parse grammar arguments = .ok given → given.operands = [path] →
      tree.read site.directory path = .ok content →
      ∀ tree' report, Hook.sortFileContents.run site tree arguments = .finished tree' report →
        Hook.sortFileContents.Passes site tree' arguments := by
  intro h
  have hgiven : CommandLine.parse grammar ["list"] = .ok ⟨[], ["list"]⟩ := by decide
  have hunique : CommandLine.Given.has ⟨[], ["list"]⟩ "unique" = false := by decide
  have hread := read_lone "\n"
  obtain ⟨tree', report, hrun, hread', -⟩ := run_single hgiven hunique rfl hread
  have hpasses := h _ _ _ _ _ _ hgiven rfl hread tree' report hrun
  have hsettled := (passes_iff hgiven hunique rfl hread').1 hpasses
  obtain ⟨line, hline, hblank⟩ := (settled_of_ended (List.suffix_refl ['\n'])).1 hsettled
  have hall : ∀ line ∈ (Buffer.parse "\n").lines, isBlank line = true := by decide
  rw [hall line hline] at hblank
  exact Bool.noConfusion hblank

end SortFileContents

end GitHooks
