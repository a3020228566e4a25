/-
**The hook that adds issue IDs to commit messages.**

A commit message that does not mention the issue of its branch is changed so that it does.  The
commit is never stopped, unless the template or the file of the message cannot be used, or the disk
refuses to replace that file.

Main definitions:

* `AddIssue.grammar` — the command line;
* `AddIssue.amendOn` — the files after the message in one of them has got its ID;
* `AddIssue.amend` — the same on a disk that refuses nothing;
* `AddIssue.runOn` — a whole run.
-/

import GitHooks.CommandLine
import GitHooks.Hook.FileHook
import GitHooks.Message.WithIssue

set_option relaxedAutoImplicit false
set_option autoImplicit false

namespace GitHooks

namespace AddIssue

/-- The name of the hook. -/
def name : Text := "add-msg-issue"

/-- The command line: a template, and the file of the message. -/
def grammar : CommandLine.Grammar := ⟨[.mk "template" (some 't') true], [], .one⟩

/-- The branch, and a warning where it cannot be found out. -/
def branchOf (site : Site) : Text × Report :=
  match Git.branchName site.git with
  | .ok branch => (branch, .empty)
  | .error error =>
    ([], ⟨[], [name ++ ": warning: could not read the branch name: " ++ error.message], [], false⟩)

/-- The report on a message, where the branch is the reason for what became of it. -/
def decided (path decision branch : Text) : Report :=
  ⟨[], [], [Journal.entry name path decision branch], false⟩

/-- The files after the message in one of them has got its ID, and the report on it. -/
def amendOn (disk : Disk) (template : Template) (branch : Text) (site : Site) (tree : FileTree)
    (path : Text) : FileTree × Report :=
  match FileHook.contentOf tree site.directory path with
  | .error error => (tree, .fatal name error)
  | .ok message =>
    match CommitMessage.withIssue? branch message template with
    | none => (tree, decided path "unchanged" branch)
    | some amended =>
      match disk.refusal? tree path (amended ++ "\n") with
      | some refusal => (tree, .stopped name (refusal.message path))
      | none => (tree.write site.directory path (amended ++ "\n"), decided path "modified" branch)

/-- The message amended on a disk that refuses nothing. -/
def amend (template : Template) (branch : Text) (site : Site) (tree : FileTree) (path : Text) :
    FileTree × Report :=
  amendOn .obliging template branch site tree path

/-- The files after a run, and the report of the run. -/
def runOn (disk : Disk) (given : CommandLine.Given) (site : Site) (tree : FileTree) :
    FileTree × Report :=
  match Template.parse ((given.value? "template").getD Template.standardText) with
  | .error fault => (tree, .fatal name (.configuration (.template fault)))
  | .ok template =>
    let (branch, warning) := branchOf site
    let (tree, report) := amendOn disk template branch site tree (given.operands.headD [])
    (tree, warning ++ report)

end AddIssue

end GitHooks
