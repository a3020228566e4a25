/-
**The files that a hook sees.**

A file tree is a list of files and directories by their places, which are lists of names from the
root down.  A path is followed from a directory, component by component: a name has to be there,
and whatever something is looked for in has to be a directory.

Main definitions:

* `Location`, `FileTree.Content`, `FileTree` — places, and what is at them;
* `FileTree.Fault` — why a path leads to no text;
* `FileTree.locate` — the place a path leads to;
* `FileTree.isFile`, `FileTree.read` — whether a path leads to a file, and the text in it;
* `FileTree.write` — a tree with other bytes in a file.

Main results:

* `FileTree.fileAt?_writeAt_of_ne` — writing a file leaves every other file as it is.
-/

import GitHooks.Text.Encoding

set_option relaxedAutoImplicit false
set_option autoImplicit false

namespace GitHooks

open Text

/-- A place in a file tree: the names on the way from the root. -/
abbrev Location := List Text

namespace FileTree

/-- What is at a place. -/
inductive Content where
  | file (bytes : ByteArray)
  | directory
deriving Inhabited

/-- Whether there is a directory. -/
def Content.isDirectory : Content → Bool
  | file _ => false
  | directory => true

/-- Why a path leads to no text. -/
inductive Fault where
  | notFound
  | notADirectory
  | isADirectory
  | notUtf8
deriving DecidableEq, Repr, Inhabited

/-- What a user is told about a fault. -/
def Fault.message : Fault → Text
  | notFound => "No such file or directory (os error 2)"
  | notADirectory => "Not a directory (os error 20)"
  | isADirectory => "Is a directory (os error 21)"
  | notUtf8 => "stream did not contain valid UTF-8"

end FileTree

/-- Files and directories by their places.  A directory that holds something need not be listed. -/
structure FileTree where
  entries : List (Location × FileTree.Content)
deriving Inhabited

namespace FileTree

/-! ### Places -/

/-- The bytes of the file at a place among some entries. -/
def fileIn? (location : Location) : List (Location × Content) → Option ByteArray
  | [] => none
  | (place, content) :: rest =>
    if place = location then
      match content with
      | .file bytes => some bytes
      | .directory => none
    else fileIn? location rest

/-- The bytes of the file at a place. -/
def fileAt? (tree : FileTree) (location : Location) : Option ByteArray :=
  fileIn? location tree.entries

/-- Whether a place is a directory: the root, one that is listed, or one that holds something. -/
def isDirectory (tree : FileTree) (location : Location) : Bool :=
  location.isEmpty || tree.entries.any fun (place, content) =>
    if place = location then content.isDirectory else location.isPrefixOf place

/-- Whether there is something at a place. -/
def has (tree : FileTree) (location : Location) : Bool :=
  (tree.fileAt? location).isSome || tree.isDirectory location

/-- The place a segment of a path leads to. -/
def follow (tree : FileTree) (here : Location) (segment : Text) : Except Fault Location :=
  if !tree.isDirectory here then .error .notADirectory
  else if segment = [] ∨ segment = "." then .ok here
  else if segment = ".." then .ok here.dropLast
  else if tree.has (here ++ [segment]) then .ok (here ++ [segment])
  else .error .notFound

/-- The place a path leads to from a directory. -/
def locate (tree : FileTree) (directory : Location) (path : Text) : Except Fault Location :=
  if path.isEmpty then .error .notFound
  else (splitOn "/" path).foldlM tree.follow (if startsWith path "/" then [] else directory)

/-! ### Reading and writing -/

/-- Whether a path leads to a file. -/
def isFile (tree : FileTree) (directory : Location) (path : Text) : Bool :=
  match tree.locate directory path with
  | .ok location => (tree.fileAt? location).isSome
  | .error _ => false

/-- The text of the file a path leads to. -/
def read (tree : FileTree) (directory : Location) (path : Text) : Except Fault Text :=
  match tree.locate directory path with
  | .error fault => .error fault
  | .ok location =>
    match tree.fileAt? location with
    | none => .error .isADirectory
    | some bytes =>
      match decode? bytes with
      | none => .error .notUtf8
      | some text => .ok text

/-- The entries with other bytes in the file at a place. -/
def writeIn (location : Location) (bytes : ByteArray) :
    List (Location × Content) → List (Location × Content)
  | [] => [(location, .file bytes)]
  | (place, content) :: rest =>
    if place = location then (place, .file bytes) :: rest
    else (place, content) :: writeIn location bytes rest

/-- A tree with other bytes in the file at a place. -/
def writeAt (tree : FileTree) (location : Location) (bytes : ByteArray) : FileTree :=
  ⟨writeIn location bytes tree.entries⟩

/-- A tree with another text in the file a path leads to. -/
def write (tree : FileTree) (directory : Location) (path text : Text) : FileTree :=
  match tree.locate directory path with
  | .ok location => tree.writeAt location (encode text)
  | .error _ => tree

theorem fileIn?_writeIn (location other : Location) (bytes : ByteArray)
    (entries : List (Location × Content)) :
    fileIn? other (writeIn location bytes entries)
      = if location = other then some bytes else fileIn? other entries := by
  induction entries with
  | nil => by_cases h : location = other <;> simp [writeIn, fileIn?, h]
  | cons entry entries ih =>
    obtain ⟨place, content⟩ := entry
    by_cases hp : place = location
    · subst hp
      by_cases ho : place = other <;> simp [writeIn, fileIn?, ho]
    · by_cases ho : place = other
      · subst ho
        simp [writeIn, fileIn?, hp, Ne.symm hp]
      · simp [writeIn, fileIn?, hp, ho, ih]

@[simp] theorem fileAt?_writeAt (tree : FileTree) (location : Location) (bytes : ByteArray) :
    (tree.writeAt location bytes).fileAt? location = some bytes := by
  simp [fileAt?, writeAt, fileIn?_writeIn]

/-- Writing a file leaves every other file as it is. -/
theorem fileAt?_writeAt_of_ne {tree : FileTree} {location other : Location} (bytes : ByteArray)
    (h : location ≠ other) :
    (tree.writeAt location bytes).fileAt? other = tree.fileAt? other := by
  simp [fileAt?, writeAt, fileIn?_writeIn, h]

/-- The path of a place, from the root. -/
def pathOf (location : Location) : Text := "/" ++ joinWith "/" location

end FileTree

end GitHooks
