/-
**Configuration files.**

The format of a configuration file is told by its extension.  Beside files of their own, tools
find their settings in a section of the files that describe a project; at most one of these may
have such a section.

Main definitions:

* `Config.parse` — the table of the content of a file;
* `Config.readTable` — the table of a file;
* `Config.iniSection?`, `Config.nestedSection?` — the section of a tool in a table;
* `Config.Section`, `Config.readSection` — the section of a tool in the files of a project.
-/

import GitHooks.Config.Json
import GitHooks.Config.Toml.Syntax
import GitHooks.Config.Yaml.Value
import GitHooks.HookError

set_option relaxedAutoImplicit false
set_option autoImplicit false

namespace GitHooks

namespace Config

open Text

/-! ### Formats -/

/-- The formats of configuration files. -/
inductive Format where
  | yaml
  | json
  | toml
  | ini
deriving DecidableEq, Repr, Inhabited

/-- The format that the extension of a path tells. -/
def Format.ofPath? (path : Text) : Option Format :=
  (Path.extension? path).bind fun extension =>
    if extension = "yaml" ∨ extension = "yml" then some yaml
    else if extension = "json" then some json
    else if extension = "toml" then some toml
    else if extension = "cfg" ∨ extension = "ini" then some ini
    else none

/-- The table of a content in a format. -/
def Format.parse (content : Text) : Format → Except Unreadable Table
  | yaml => ((Yaml.parse? content).map Except.ok).getD (.error .yaml)
  | json => ((Json.parse? content).map Except.ok).getD (.error .json)
  | toml => ((Toml.parse? content).map Except.ok).getD (.error .toml)
  | ini => (Ini.parse content).mapError .ini

/-- The table of the content of the file at a path. -/
def parse (path content : Text) : Except Fault Table :=
  match Format.ofPath? path with
  | none => .error (.unknownFormat path)
  | some format => (format.parse content).mapError (.unreadable path)

/-- The table of the file a path leads to. -/
def readTable (tree : FileTree) (directory : Location) (path : Text) : Except HookError Table := do
  let content ← (tree.read directory path).mapError (.unreadable path)
  (parse path content).mapError .configuration

/-! ### Sections of tools -/

/-- The section of a tool in a table of tables. -/
def nestedSection? (table : Table) (tool : Text) : Option Table :=
  ((((Entries.get? "tool" table).bind Value.table?).bind (Entries.get? tool)).bind Value.table?)

/-- What the section of one name adds to the section of a tool. -/
def addSection (tool : Text) (found : Option Table) (named : Text × Value) : Option Table :=
  let header := "tool." ++ tool
  match named.2.table? with
  | none => found
  | some table =>
    if named.1 = header then
      some (table.foldl (fun all (key, value) => Entries.insert key value all) (found.getD []))
    else
      match dropLeading? (header ++ ".") named.1 with
      | some name => some (Entries.insert name (.table table) (found.getD []))
      | none => found

/-- The section of a tool among sections by name: the options of its own section, with a table for
each section below it. -/
def iniSection? (sections : Table) (tool : Text) : Option Table :=
  sections.foldl (addSection tool) none

/-- A section and the file it was found in. -/
structure Section where
  table : Table
  source : Text
deriving Repr, Inhabited

/-- The files of a project that can have sections for tools, and where in them these are. -/
def projectFiles : List (Text × (Table → Text → Option Table)) :=
  [(("pyproject.toml" : Text), nestedSection?), (("setup.cfg" : Text), iniSection?)]

/-- The section of a tool in one of the files of a project below `root`. -/
def sectionIn (tree : FileTree) (directory : Location) (root tool : Text)
    (file : Text × (Table → Text → Option Table)) : Except HookError (Option Section) := do
  let path := Path.join root file.1
  if tree.isFile directory path then
    let table ← readTable tree directory path
    return (file.2 table tool).map fun table => ⟨table, path⟩
  else return none

/-- The section of a tool in the files of a project below `root`.  More than one is an error. -/
def readSection (tree : FileTree) (directory : Location) (root tool : Text) :
    Except HookError (Option Section) := do
  let found ← projectFiles.mapM (sectionIn tree directory root tool)
  match found.filterMap id with
  | [] => return none
  | [only] => return some only
  | many => throw (.configuration (.ambiguous tool (many.map Section.source)))

end Config

end GitHooks
