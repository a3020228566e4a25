/-
**The hook that looks for spellings other than those of the United States.**

Such spellings are reported with line and column, or corrected on request.

Main definitions:

* `Americanise.grammar` — the command line;
* `Americanise.report`, `Americanise.correct` — what becomes of a file;
* `Americanise.hook` — the hook.
-/

import GitHooks.Buffer
import GitHooks.CommandLine
import GitHooks.Hook.FileHook
import GitHooks.Spelling

set_option relaxedAutoImplicit false
set_option autoImplicit false

namespace GitHooks

namespace Americanise

/-- The command line: whether spellings are corrected, and files. -/
def grammar : CommandLine.Grammar := ⟨[.mk "fix" none false], [], .any⟩

/-- What a user is told about the spellings on some lines. -/
def messages (lines : List Text) : List Text :=
  lines.zipIdx.flatMap fun (line, index) =>
    (Spelling.check line).map (Spelling.Finding.message (index + 1))

/-- What becomes of a file whose spellings are reported. -/
def report : Check := fun _ content => do
  match messages (Buffer.parse (← content)).lines with
  | [] => return ⟨[], .unchanged⟩
  | found => return ⟨[], .violation found⟩

/-- What becomes of a file whose spellings are corrected. -/
def correct : Check := fun _ content => do
  let buffer := Buffer.parse (← content)
  let lines := buffer.lines.map Spelling.correct
  if lines = buffer.lines then return ⟨[], .unchanged⟩
  else return ⟨[], .modified (buffer.withLines lines).render⟩

/-- The hook, as the command line asks for it. -/
def hook (given : CommandLine.Given) : FileHook where
  name := "americanise"
  concerns _ := true
  prepare _ _ := .ok (if given.has "fix" then correct else report)

end Americanise

end GitHooks
