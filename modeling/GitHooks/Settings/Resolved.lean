/-
**Settings in force.**

When all layers are on top of each other, what is still missing is filled in: the name by the
identity of the committer, the format by the standard one.  Every format that may be used is
checked then, so that no file meets a faulty one.

Main definitions:

* `Settings.Resolved`, `Settings.resolve` — settings with nothing missing;
* `Settings.Resolved.forLanguage` — the settings for the files of a language;
* `Settings.toolName`, `Settings.dedicatedFile`, `Settings.load` — the layers of files.
-/

import GitHooks.Config.File
import GitHooks.Notice.Edit
import GitHooks.Settings.Layer

set_option relaxedAutoImplicit false
set_option autoImplicit false

namespace GitHooks

namespace Settings

/-! ### Filling in -/

/-- Settings with nothing missing. -/
structure Resolved where
  name : Text
  format : Text
  /-- Whether the format was given on the command line, where it beats the blocks of languages. -/
  formatFromCommandLine : Bool
  languages : Entries Block
deriving DecidableEq, Repr, Inhabited

/-- Refuses a format that lacks a placeholder. -/
def checkFormat (format : Text) : Except HookError Unit :=
  (NoticeFormat.check format).mapError fun fault => .configuration (.noticeFormat fault)

/-- Refuses blocks of which a format lacks a placeholder. -/
def checkBlocks (languages : Entries Block) : Except HookError Unit :=
  languages.forM fun (_, block) =>
    match block.format with
    | some format => checkFormat format
    | none => .ok ()

/-- The settings in force, from the command line, the layers of files and the identity of the
committer. -/
def resolve (commandLine files : Layer) (identity : Option Text) : Except HookError Resolved := do
  let formatFromCommandLine := commandLine.format.isSome
  let merged := commandLine.or files
  match merged.name.or identity with
  | none => throw .missingIdentity
  | some name =>
    let format := merged.format.getD NoticeFormat.standard
    checkFormat format
    if !formatFromCommandLine then checkBlocks merged.languages
    return { name, format, formatFromCommandLine, languages := merged.languages }

namespace Resolved

/-- The format for the files of a language: that of its block, unless the command line gives one. -/
def formatFor (settings : Resolved) (block : Option Block) : Text :=
  if settings.formatFromCommandLine then settings.format
  else (block.bind Block.format).getD settings.format

/-- The settings for the files of a language. -/
def forLanguage (settings : Resolved) (language : Language) : NoticeSettings :=
  let block := Entries.get? language.tag settings.languages
  { name := settings.name
    format := settings.formatFor block
    docstring := (block.bind Block.docstring).getD false }

end Resolved

/-! ### Files -/

/-- The name of the tool whose section in a project file is read. -/
def toolName : Text := "add_copyright"

/-- The configuration file looked for at the root of a repository. -/
def dedicatedFile : Text := ".add-copyright-hook-config.yaml"

/-- The layer that a table from a source spells out. -/
def layerOf (table : Config.Table) (source : Text) : Except HookError Layer :=
  (Layer.ofTable table source).mapError .configuration

/-- The path of the configuration file: the one asked for, or the one at the root if it is there. -/
def dedicatedPath? (tree : FileTree) (directory : Location) (explicit : Option Text)
    (root : Text) : Option Text :=
  match explicit with
  | some path => some path
  | none =>
    let path := Path.join root dedicatedFile
    if tree.isFile directory path then some path else none

/-- The layer of the configuration file. -/
def dedicatedLayer (tree : FileTree) (directory : Location) (explicit : Option Text)
    (root : Text) : Except HookError Layer :=
  match dedicatedPath? tree directory explicit root with
  | some path => do layerOf (← Config.readTable tree directory path) path
  | none => .ok Layer.empty

/-- The layers of files: the configuration file on top of the section of a project file. -/
def load (tree : FileTree) (directory : Location) (explicit : Option Text) (root : Text) :
    Except HookError Layer := do
  let dedicated ← dedicatedLayer tree directory explicit root
  match ← Config.readSection tree directory root toolName with
  | none => return dedicated
  | some part => return dedicated.or (← layerOf part.table part.source)

end Settings

end GitHooks
