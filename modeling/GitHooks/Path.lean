/-
**Paths as they are written.**

A path is a text; the slashes in it separate its segments.  Empty segments and single dots carry
no component, except that a leading slash is the root and a leading dot is the current directory.
Everything here is said of the written path; whether something is there is the business of
`FileTree`.

Main definitions:

* `Path.Component`, `Path.components` — the components of a path;
* `Path.fileName?`, `Path.extension?` — the last component, and what follows its last dot;
* `Path.join` — a name below a directory;
* `Path.directory` — the directory that a path names a file in;
* `Path.relativeTo?` — a path without the components of a base it begins with;
* `Path.shown` — the path a user is shown: relative to the base when it lies below it.
-/

import GitHooks.Text.Basic

set_option relaxedAutoImplicit false
set_option autoImplicit false

namespace GitHooks

namespace Path

open Text

/-! ### Components -/

/-- One step of a path. -/
inductive Component where
  | root
  | current
  | parent
  | name (text : Text)
deriving DecidableEq, Repr, Inhabited

/-- The component a segment stands for; `first` tells whether the path begins with it. -/
def componentOf (first : Bool) (segment : Text) : Option Component :=
  if segment = [] then none
  else if segment = "." then if first then some Component.current else none
  else if segment = ".." then some Component.parent
  else some (Component.name segment)

/-- The segments of a path, each with the component it stands for. -/
def segments (path : Text) : List (Text × Option Component) :=
  match splitOn "/" path with
  | [] => []
  | first :: rest =>
    let lead := if startsWith path "/" then some Component.root else componentOf true first
    (first, lead) :: rest.map fun segment => (segment, componentOf false segment)

/-- The components of a path. -/
def components (path : Text) : List Component := (segments path).filterMap (·.2)

/-- The name a path ends with, if its last component is a name. -/
def fileName? (path : Text) : Option Text :=
  match (components path).getLast? with
  | some (Component.name text) => some text
  | _ => none

/-- What follows the last dot of a file name; a name that only begins with a dot has none. -/
def extensionOf? (name : Text) : Option Text :=
  match cutWhere? (· == '.') name.reverse with
  | some (after, before) => if before.isEmpty then none else some after.reverse
  | none => none

/-- The extension of the file a path names. -/
def extension? (path : Text) : Option Text := (fileName? path).bind extensionOf?

/-! ### Putting together and taking apart -/

/-- The path of `name` in `directory`. -/
def join (directory name : Text) : Text :=
  if directory.isEmpty || endsWith directory "/" then directory ++ name
  else directory ++ "/" ++ name

/-- The segments left after the first `count` components. -/
def dropComponents : Nat → List (Text × Option Component) → List (Text × Option Component)
  | 0, rest => rest
  | _, [] => []
  | count + 1, (_, none) :: rest => dropComponents (count + 1) rest
  | count + 1, (_, some _) :: rest => dropComponents count rest

/-- Segments as a path again, without the ones at the end that carry no component. -/
def written (rest : List (Text × Option Component)) : Text :=
  match (rest.reverse.dropWhile (·.2.isNone)).reverse with
  | [(_, some Component.root)] => "/"
  | kept => joinWith "/" (kept.map (·.1))

/-- The path without its last component; the root has no parent. -/
def parent? (path : Text) : Option Text :=
  match (segments path).reverse.dropWhile (·.2.isNone) with
  | [] | (_, some Component.root) :: _ => none
  | _ :: rest => some (written rest.reverse)

/-- The directory that a path names a file in. -/
def directory (path : Text) : Text :=
  match parent? path with
  | some parent => if parent.isEmpty then "." else parent
  | none => "."

/-- The path without the components of `base`, if it begins with them. -/
def relativeTo? (base path : Text) : Option Text :=
  let lead := components base
  if lead.isPrefixOf (components path) then
    match lead with
    | [] => some (written (segments path))
    | _ => some (written ((dropComponents lead.length (segments path)).dropWhile (·.2.isNone)))
  else none

/-- The path a user is shown: relative to `base` when it lies below it, else as it is. -/
def shown (base path : Text) : Text := (relativeTo? base path).getD path

end Path

end GitHooks
