/-
**The hook that adds copyright notices.**

Every file without a notice gets one for the current year.  Holder and format come from the
command line, from files of settings, and from the repository.

Main definitions:

* `AddCopyright.grammar` — the command line;
* `AddCopyright.settings` — the settings in force at a site;
* `AddCopyright.judge` — what becomes of a file;
* `AddCopyright.hook` — the hook.
-/

import GitHooks.Buffer
import GitHooks.CommandLine
import GitHooks.Hook.FileHook
import GitHooks.Settings.Resolved

set_option relaxedAutoImplicit false
set_option autoImplicit false

namespace GitHooks

namespace AddCopyright

open Text

/-- The command line: a name and a format, or a file of settings, and files. -/
def grammar : CommandLine.Grammar where
  switches :=
    [.mk "name" (some 'n') true, .mk "format" (some 'f') true, .mk "config" (some 'c') true]
  conflicts := [.mk "name" "config", .mk "format" "config"]
  operands := .any

/-- The settings that are given on the command line. -/
def layerOf (given : CommandLine.Given) : Settings.Layer :=
  { Settings.Layer.empty with name := given.value? "name", format := given.value? "format" }

/-- The settings in force at a site. -/
def settings (given : CommandLine.Given) (site : Site) (tree : FileTree) :
    Except HookError Settings.Resolved := do
  let identity := (Git.userName? site.git).toOption.join
  let root := (Git.workingTree site.git site.path).toOption.getD site.path
  let files ← Settings.load tree site.directory (given.value? "config") root
  Settings.resolve (layerOf given) files identity

/-- The lines with characters in them that the file did not have. -/
def newLines (before after : List Text) : List Text :=
  after.filter fun line => !line.isEmpty && !before.contains line

/-- Whether a file holds nothing behind its preamble. -/
def isBare (lines : List Text) : Bool := (lines.drop (Header.preambleLength lines)).all isBlank

/-- A buffer with other lines; where the file held nothing but a preamble, its last line is
ended. -/
def withNotice (buffer : Buffer) (lines : List Text) : Buffer :=
  { buffer.withLines lines with finalNewline := isBare buffer.lines || buffer.finalNewline }

/-- What becomes of a file. -/
def judge (settings : Settings.Resolved) (year : Int) : Check := fun path content => do
  let language ← languageOf path
  let buffer := Buffer.parse (← content)
  let edit ← (Notice.add buffer.lines (settings.forLanguage language) language year).mapError
    fun fault => .configuration (.noticeFormat fault)
  let warnings := edit.warnings.map fun malformed => Remark.warning malformed.message
  if edit.changed then
    let note := Remark.note ("added " ++ joinWith " / " (newLines buffer.lines edit.lines))
    return ⟨warnings ++ [note], .modified (withNotice buffer edit.lines).render⟩
  else return ⟨warnings, .unchanged⟩

/-- The hook, as the command line asks for it. -/
def hook (given : CommandLine.Given) : FileHook where
  name := "add-copyright"
  concerns _ := true
  prepare site tree := (settings given site tree).map fun settings => judge settings site.year

end AddCopyright

end GitHooks
