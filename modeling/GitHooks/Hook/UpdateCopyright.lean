/-
**The hook that updates copyright notices.**

The notice of every file that has one is made to reach the current year, unless the file is no
older than that.  The age of a file is the year of its first commit; one without commits is new.

Main definitions:

* `UpdateCopyright.judge` — what becomes of a file;
* `UpdateCopyright.hook` — the hook.
-/

import GitHooks.Buffer
import GitHooks.CommandLine
import GitHooks.Diff
import GitHooks.Hook.FileHook
import GitHooks.Notice.Edit

set_option relaxedAutoImplicit false
set_option autoImplicit false

namespace GitHooks

namespace UpdateCopyright

open Text

/-- The command line: files. -/
def grammar : CommandLine.Grammar := ⟨[], [], .any⟩

/-- The warning that a file is younger than the current year. -/
def youngerWarning (firstCommitYear year : Int) : List Remark :=
  if firstCommitYear > year then
    [.warning ("first commit year " ++ ofInt firstCommitYear ++ " is after the current year "
      ++ ofInt year ++ "; leaving the notice as it is")]
  else []

/-- The note on one line of a notice, where it is another one now. -/
def lineNote (coloured : Bool) (notice : Notice) (before after : Text) : Option Remark :=
  if before = after then none
  else
    some (.note ("updated " ++ notice.marker.describe ++ " notice of " ++ notice.holder ++ "\n"
      ++ Diff.render coloured before after))

/-- The notes on the lines of a notice. -/
def lineNotes (coloured : Bool) (before : List Text) (edit : Edit) : List Remark :=
  match edit.notice with
  | none => []
  | some notice =>
    ((notice.block.slice before).zip (notice.block.slice edit.lines)).filterMap
      fun (old, new) => lineNote coloured notice old new

/-- What becomes of a file. -/
def judge (site : Site) : Check := fun path content => do
  let language ← languageOf path
  let buffer := Buffer.parse (← content)
  let firstCommitYear := (← Git.firstCommitYear? site.git path).getD site.year
  let edit := Notice.update buffer.lines language firstCommitYear site.year
  let warnings := youngerWarning firstCommitYear site.year
    ++ edit.warnings.map fun malformed => Remark.warning malformed.message
  if edit.changed then
    return ⟨warnings ++ lineNotes site.coloured buffer.lines edit,
      .modified (buffer.withLines edit.lines).render⟩
  else return ⟨warnings, .unchanged⟩

/-- The hook, which runs in a repository only. -/
def hook : FileHook where
  name := "update-copyright"
  concerns _ := true
  prepare site _ :=
    match Git.workingTree site.git site.path with
    | .ok _ => .ok (judge site)
    | .error _ => .error (.notARepository site.path)

end UpdateCopyright

end GitHooks
