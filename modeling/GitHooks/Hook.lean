/-
**The hooks.**

Each hook has a name, a command line, and something it does to files.  A command line that asks for
help or for the version, or that is not understood, changes no file.

Main definitions:

* `Hook` — the hooks;
* `Hook.Answer` — what a run answers;
* `Hook.runOn` — a run with some arguments;
* `Hook.run` — the same on a disk that refuses nothing.

Main results:

* `Hook.ofName?_name` — a hook is found by its name.
-/

import GitHooks.Hook.AddCopyright
import GitHooks.Hook.AddIssue
import GitHooks.Hook.Americanise
import GitHooks.Hook.RefuseTestImports
import GitHooks.Hook.SortFileContents
import GitHooks.Hook.UpdateCopyright

set_option relaxedAutoImplicit false
set_option autoImplicit false

namespace GitHooks

/-- The hooks. -/
inductive Hook where
  | addCopyright
  | updateCopyright
  | sortFileContents
  | americanise
  | refuseTestImports
  | addIssue
deriving DecidableEq, Repr, Inhabited

namespace Hook

/-! ### Names -/

/-- Every hook. -/
def all : List Hook :=
  [addCopyright, updateCopyright, sortFileContents, americanise, refuseTestImports, addIssue]

/-- The name of a hook. -/
def name : Hook → Text
  | addCopyright => "add-copyright"
  | updateCopyright => "update-copyright"
  | sortFileContents => "sort-file-contents"
  | americanise => "americanise"
  | refuseTestImports => "no-import-testtools-in-src"
  | addIssue => "add-msg-issue"

/-- The hook with a name. -/
def ofName? (text : Text) : Option Hook := all.find? fun hook => hook.name = text

theorem ofName?_name (hook : Hook) : ofName? hook.name = some hook := by
  cases hook <;> decide

/-- The version of the hooks. -/
def version : Text := "0.1.0"

/-- What is shown to someone who asks for the version. -/
def versionLine (hook : Hook) : Text := hook.name ++ " " ++ version

/-! ### Runs -/

/-- What a hook understands on its command line. -/
def grammar : Hook → CommandLine.Grammar
  | addCopyright => AddCopyright.grammar
  | updateCopyright => UpdateCopyright.grammar
  | sortFileContents => SortFileContents.grammar
  | americanise => Americanise.grammar
  | refuseTestImports => RefuseTestImports.grammar
  | addIssue => AddIssue.grammar

/-- The hook over files that a command line asks for; the hook over a message is none. -/
def fileHook? (hook : Hook) (given : CommandLine.Given) : Option FileHook :=
  match hook with
  | addCopyright => some (AddCopyright.hook given)
  | updateCopyright => some UpdateCopyright.hook
  | sortFileContents => some (SortFileContents.hook given)
  | americanise => some (Americanise.hook given)
  | refuseTestImports => some RefuseTestImports.hook
  | addIssue => none

/-- The files after what a command line asks for has been done, and the report on it. -/
def performOn (disk : Disk) (hook : Hook) (given : CommandLine.Given) (site : Site)
    (tree : FileTree) : FileTree × Report :=
  match hook.fileHook? given with
  | some fileHook => fileHook.runOn disk site tree given.operands
  | none => AddIssue.runOn disk given site tree

/-- What is done on a disk that refuses nothing. -/
def perform (hook : Hook) (given : CommandLine.Given) (site : Site) (tree : FileTree) :
    FileTree × Report :=
  hook.performOn .obliging given site tree

/-- What a run answers. -/
inductive Answer where
  | help
  | version
  | misuse
  | finished (tree : FileTree) (report : Report)

/-- The answer of a run with some arguments. -/
def runOn (disk : Disk) (hook : Hook) (site : Site) (tree : FileTree) (arguments : List Text) :
    Answer :=
  match CommandLine.parse hook.grammar arguments with
  | .error .help => .help
  | .error .version => .version
  | .error .misuse => .misuse
  | .ok given =>
    let (tree, report) := hook.performOn disk given site tree
    .finished tree report

/-- The answer of a run on a disk that refuses nothing. -/
def run (hook : Hook) (site : Site) (tree : FileTree) (arguments : List Text) : Answer :=
  hook.runOn .obliging site tree arguments

/-- The exit code of an answer. -/
def Answer.exitCode : Answer → Nat
  | help | version => 0
  | misuse => 2
  | finished _ report => if report.failing then 1 else 0

end Hook

end GitHooks
