/-
**Settings in INI form.**

A file in INI form is a list of sections in brackets with options below them.  The words true and
false are truth values, everything else is text; an indented line goes on with the text of the
option above it.  Blank lines and lines that begin with a hash sign or a semicolon mean nothing.

Main definitions:

* `Ini.Fault` — why a file is refused;
* `Ini.Line`, `Ini.classify` — what a line is, by itself;
* `Ini.State`, `Ini.step` — the sections read so far, and what one more line does to them;
* `Ini.parse` — the sections of a file.
-/

import GitHooks.Config.Value
import GitHooks.Text.Lines
import GitHooks.Text.Space

set_option relaxedAutoImplicit false
set_option autoImplicit false

namespace GitHooks

namespace Config

namespace Ini

open Text

/-! ### Faults -/

/-- Why a file in INI form is refused. -/
inductive Fault where
  /-- An option stands above the first section. -/
  | outsideSection (lineNumber : Nat)
  /-- A line is neither a section nor an option. -/
  | notAnOption (lineNumber : Nat) (line : Text)
deriving DecidableEq, Repr, Inhabited

/-- What a user is told about a fault. -/
def Fault.message : Fault → Text
  | outsideSection lineNumber =>
    "line " ++ ofNat lineNumber ++ ": option outside of any [section]"
  | notAnOption lineNumber line =>
    "line " ++ ofNat lineNumber ++ ": expected 'key = value', got '" ++ line ++ "'"

/-! ### Lines -/

/-- What a line is, by itself. -/
inductive Line where
  | blank
  | section (name : Text)
  | option (key : Text) (value : Value)
  | other
deriving Repr, Inhabited

/-- The value of an option. -/
def valueOf (t : Text) : Value :=
  let lower := t.map Char.toLower
  if lower = "true" then .boolean true
  else if lower = "false" then .boolean false
  else .text t

/-- Whether a trimmed line is empty or a comment. -/
def isIgnored (line : Text) : Bool := line.isEmpty || startsWith line "#" || startsWith line ";"

/-- The name of the section that a trimmed line begins. -/
def sectionName? (line : Text) : Option Text :=
  ((dropLeading? "[" line).bind (dropTrailing? "]")).map trim

/-- What a trimmed line is, by itself. -/
def classify (line : Text) : Line :=
  if isIgnored line then .blank
  else
    match sectionName? line with
    | some name => .section name
    | none =>
      match cutWhere? (fun c => c == '=' || c == ':') line with
      | some (key, value) => .option (trim key) (valueOf (trim value))
      | none => .other

/-- Whether a line is indented, so that it can go on with an option. -/
def isIndented (line : Text) : Bool := startsWith line " " || startsWith line "\t"

/-! ### Sections -/

/-- What has been read. -/
structure State where
  sections : Entries Table
  /-- The section that options go into. -/
  current : Option Text
  /-- The option that an indented line goes on with. -/
  lastKey : Option Text
deriving Repr, Inhabited

/-- The sections with a text of an option continued. -/
def continued (sections : Entries Table) (name key line : Text) : Option (Entries Table) :=
  ((Entries.get? name sections).bind (Entries.get? key)).bind fun value =>
    value.text?.map fun text =>
      let longer := if text.isEmpty then line else text ++ "\n" ++ line
      Entries.alter name (Option.map (Entries.insert key (.text longer))) sections

/-- The sections with the option above continued by an indented line, where that is possible. -/
def continue? (state : State) (line : Text) : Option State :=
  match state.current, state.lastKey with
  | some name, some key =>
    (continued state.sections name key line).map fun sections => { state with sections }
  | _, _ => none

/-- What a line that continues nothing does to the sections. -/
def start (state : State) (lineNumber : Nat) (line : Text) : Except Fault State :=
  match classify line with
  | .blank => .ok state
  | .section name =>
    .ok ⟨Entries.alter name (fun table => some (table.getD [])) state.sections, some name, none⟩
  | .option key value =>
    match state.current with
    | none => .error (.outsideSection lineNumber)
    | some name =>
      .ok ⟨Entries.alter name (Option.map (Entries.insert key value)) state.sections, some name,
        some key⟩
  | .other =>
    match state.current with
    | none => .error (.outsideSection lineNumber)
    | some _ => .error (.notAnOption lineNumber line)

/-- What one more line does to the sections. -/
def step (state : State) (numbered : Text × Nat) : Except Fault State :=
  let line := trim numbered.1
  if isIgnored line then .ok state
  else
    match if isIndented numbered.1 then continue? state line else none with
    | some state => .ok state
    | none => start state (numbered.2 + 1) line

/-- The sections of a file, by name. -/
def sections (content : Text) : Except Fault (Entries Table) :=
  ((lines content).zipIdx.foldlM step ⟨[], none, none⟩).map State.sections

/-- A file as a table of its sections. -/
def parse (content : Text) : Except Fault Table :=
  (sections content).map (List.map fun (name, table) => (name, .table table))

end Ini

end Config

end GitHooks
