/-
**The hook that refuses imports of test tools.**

Modules outside the test suite that import a tool for tests are reported, with the line of every
such import.

Main definitions:

* `RefuseTestImports.judge` — what becomes of a module;
* `RefuseTestImports.hook` — the hook.
-/

import GitHooks.Buffer
import GitHooks.CommandLine
import GitHooks.Hook.FileHook
import GitHooks.TestImport

set_option relaxedAutoImplicit false
set_option autoImplicit false

namespace GitHooks

namespace RefuseTestImports

/-- The command line: files. -/
def grammar : CommandLine.Grammar := ⟨[], [], .any⟩

/-- What becomes of a module. -/
def judge : Check := fun _ content => do
  match (TestImport.inLines (Buffer.parse (← content)).lines).map TestImport.Finding.message with
  | [] => return ⟨[], .unchanged⟩
  | found => return ⟨[], .violation found⟩

/-- The hook, which looks at modules outside the test suite. -/
def hook : FileHook where
  name := "no-import-testtools-in-src"
  concerns := TestImport.isSourceModule
  prepare _ _ := .ok judge

end RefuseTestImports

end GitHooks
