/-
**The hook that sorts files.**

The lines of every section of a file are sorted; on request, repeated ones are dropped.

Main definitions:

* `SortFileContents.grammar` — the command line;
* `SortFileContents.judge` — what becomes of a file;
* `SortFileContents.hook` — the hook.
-/

import GitHooks.Buffer
import GitHooks.CommandLine
import GitHooks.Hook.FileHook
import GitHooks.Section

set_option relaxedAutoImplicit false
set_option autoImplicit false

namespace GitHooks

namespace SortFileContents

/-- The command line: whether lines are unique, and files. -/
def grammar : CommandLine.Grammar := ⟨[.mk "unique" (some 'u') false], [], .any⟩

/-- What becomes of a file. -/
def judge (unique : Bool) : Check := fun path content => do
  let buffer := Buffer.parse (← content)
  let sorted := sortSections buffer.lines unique (CommentStyle.ofPath path).leading
  let warnings := sorted.remarks.map fun remark => Remark.warning remark.message
  if sorted.changed then
    return ⟨warnings, .modified (buffer.withLines sorted.lines).render⟩
  else return ⟨warnings, .unchanged⟩

/-- The hook, as the command line asks for it. -/
def hook (given : CommandLine.Given) : FileHook where
  name := "sort-file-contents"
  concerns _ := true
  prepare _ _ := .ok (judge (given.has "unique"))

end SortFileContents

end GitHooks
