/-
**A run over one file.**

A hook that is given one path judges one file, and its report is the report on that file.  Remarks
are complaints only: whether a run fails, and what it prints, is decided by the verdict.

Main definitions:

* `Hook.Passes` — a run that has nothing to do.

Main results:

* `Report.output_withRemarks`, `Report.failing_withRemarks` — remarks are complaints only;
* `Report.output_ofJudgement`, `Report.failing_ofJudgement` — the verdict decides;
* `FileHook.run_of_files` — a run over files that are there;
* `FileHook.run_single` — a run over one file is a visit of it;
* `Hook.run_single` — what becomes of a file that can be read.
-/

import GitHooks.Hook
import GitHooks.Proofs.FileTree.Writing

set_option relaxedAutoImplicit false
set_option autoImplicit false

namespace GitHooks

open Text

/-! ### Reports -/

namespace Report

variable {hook shown : Text}

theorem output_ofRemark (remark : Remark) : (ofRemark hook shown remark).output = [] := by
  cases remark <;> rfl

theorem failing_ofRemark (remark : Remark) : (ofRemark hook shown remark).failing = false := by
  cases remark <;> rfl

theorem withRemarks_cons (remark : Remark) (remarks : List Remark) (report : Report) :
    withRemarks hook shown (remark :: remarks) report
      = ofRemark hook shown remark ++ withRemarks hook shown remarks report := rfl

/-- Remarks are not printed. -/
theorem output_withRemarks (remarks : List Remark) (report : Report) :
    (withRemarks hook shown remarks report).output = report.output := by
  induction remarks with
  | nil => rfl
  | cons remark rest ih =>
      rw [withRemarks_cons, output_append, output_ofRemark, List.nil_append, ih]

/-- No run fails for a remark. -/
theorem failing_withRemarks (remarks : List Remark) (report : Report) :
    (withRemarks hook shown remarks report).failing = report.failing := by
  induction remarks with
  | nil => rfl
  | cons remark rest ih =>
      rw [withRemarks_cons, failing_append, failing_ofRemark, Bool.false_or, ih]

/-- What a run prints about a file is decided by the verdict. -/
theorem output_ofJudgement (remarks : List Remark) (verdict : Verdict) :
    (ofJudgement hook shown (.ok ⟨remarks, verdict⟩)).output
      = (ofVerdict hook shown verdict).output :=
  output_withRemarks remarks _

/-- Whether a run fails on a file is decided by the verdict. -/
theorem failing_ofJudgement (remarks : List Remark) (verdict : Verdict) :
    (ofJudgement hook shown (.ok ⟨remarks, verdict⟩)).failing
      = (ofVerdict hook shown verdict).failing :=
  failing_withRemarks remarks _

/-- Nothing is printed about a file that the disk refuses to replace. -/
theorem output_ofRefusal (path : Text) (remarks : List Remark) (refusal : Disk.Refusal) :
    (ofRefusal hook shown path remarks refusal).output = [] :=
  output_withRemarks remarks _

/-- A run fails on a file that the disk refuses to replace. -/
theorem failing_ofRefusal (path : Text) (remarks : List Remark) (refusal : Disk.Refusal) :
    (ofRefusal hook shown path remarks refusal).failing = true :=
  failing_withRemarks remarks _

end Report

/-! ### Runs -/

theorem resolveFiles_of_files {tree : FileTree} {directory : Location} {paths : List Text}
    (hfiles : ∀ path ∈ paths, tree.isFile directory path = true) :
    resolveFiles tree directory paths = .ok paths := by
  have hnone : (paths.find? fun path => !tree.isFile directory path) = none :=
    List.find?_eq_none.2 fun path hpath => by simp [hfiles path hpath]
  rw [resolveFiles, hnone]

/-- A hook that is given files starts if it finds out what it needs to know. -/
theorem FileHook.run_of_files {hook : FileHook} {site : Site} {tree : FileTree}
    {paths : List Text} (hpaths : paths ≠ [])
    (hfiles : ∀ path ∈ paths, tree.isFile site.directory path = true) :
    hook.run site tree paths = match hook.prepare site tree with
      | .error error => (tree, .fatal hook.name error)
      | .ok check => visitAll hook.name site check tree (paths.filter hook.concerns) := by
  rw [run_eq, resolveFiles_of_files hfiles]
  cases paths with
  | nil => exact absurd rfl hpaths
  | cons path rest => rfl

/-- A run over one file is a visit of it. -/
theorem FileHook.run_single {hook : FileHook} {site : Site} {tree : FileTree} {path : Text}
    {check : Check} (hfile : tree.isFile site.directory path = true)
    (hconcerns : hook.concerns path = true) (hprepare : hook.prepare site tree = .ok check) :
    hook.run site tree [path] = visit hook.name site check tree path := by
  have hfiles : ∀ other ∈ [path], tree.isFile site.directory other = true :=
    fun other hother => List.mem_singleton.1 hother ▸ hfile
  have hconcerned : [path].filter hook.concerns = [path] := by simp [hconcerns]
  rw [run_of_files (List.cons_ne_nil _ _) hfiles, hprepare]
  simp only [hconcerned, visitAll, visitAllOn, Report.append_empty, visit]

theorem FileHook.contentOf_of_read {tree : FileTree} {directory : Location} {path content : Text}
    (hread : tree.read directory path = .ok content) :
    contentOf tree directory path = .ok content := by
  rw [contentOf, hread]
  rfl

/-- **A run over one file** that can be read carries out the judgement on its content. -/
theorem Hook.run_single (hook : Hook) {fileHook : FileHook} {site : Site} {tree : FileTree}
    {arguments : List Text} {given : CommandLine.Given} {path content : Text} {check : Check}
    (hgiven : CommandLine.parse hook.grammar arguments = .ok given)
    (hfileHook : hook.fileHook? given = some fileHook) (hpath : given.operands = [path])
    (hread : tree.read site.directory path = .ok content)
    (hconcerns : fileHook.concerns path = true)
    (hprepare : fileHook.prepare site tree = .ok check) :
    hook.run site tree arguments
      = .finished (FileHook.carryOut tree site.directory path (check path (.ok content)))
        (Report.ofJudgement fileHook.name (Path.shown site.path path)
          (check path (.ok content))) := by
  have hsingle : fileHook.run site tree [path]
      = FileHook.visit fileHook.name site check tree path :=
    FileHook.run_single (FileTree.isFile_of_read hread) hconcerns hprepare
  rw [FileHook.visit_eq, FileHook.contentOf_of_read hread, FileHook.run] at hsingle
  rw [Hook.run, Hook.runOn, hgiven]
  simp only [Hook.performOn, hfileHook, hpath, hsingle]

/-- A run that has nothing to do: its exit code is zero, it prints no path, and the files stay as
they are. -/
def Hook.Passes (hook : Hook) (site : Site) (tree : FileTree) (arguments : List Text) : Prop :=
  ∃ report, hook.run site tree arguments = .finished tree report
    ∧ (Answer.finished tree report).exitCode = 0 ∧ report.output = []

end GitHooks
