/-
**Reading what was written.**

Following a path asks a file tree two questions about places: whether there is a directory, and
whether there is anything.  Other bytes in a file that is there change neither answer, so a path
leads to the same place before and after, and what it leads to is the text that was written.

Two files that are there can be written in either order.

Main definitions:

* `FileTree.SameShape` — trees with the same places.

Main results:

* `FileTree.SameShape.locate_eq` — a path leads to the same place in both;
* `FileTree.sameShape_writeAt` — writing a file that is there keeps the places;
* `FileTree.write_comm` — files at different places are written in either order;
* `FileTree.read_write` — a text that is written is read.
-/

import GitHooks.FileTree

set_option relaxedAutoImplicit false
set_option autoImplicit false

namespace GitHooks

namespace FileTree

open Text

variable {tree other : FileTree} {location directory : Location} {path content : Text}
  {bytes : ByteArray}

/-! ### Places -/

/-- Trees in which the same places are there, and the same ones are directories. -/
structure SameShape (tree other : FileTree) : Prop where
  isDirectory_eq : ∀ location, tree.isDirectory location = other.isDirectory location
  has_eq : ∀ location, tree.has location = other.has location

theorem SameShape.refl (tree : FileTree) : SameShape tree tree := ⟨fun _ => rfl, fun _ => rfl⟩

theorem SameShape.trans {third : FileTree} (h : SameShape tree other) (h' : SameShape other third) :
    SameShape tree third where
  isDirectory_eq location := (h.isDirectory_eq location).trans (h'.isDirectory_eq location)
  has_eq location := (h.has_eq location).trans (h'.has_eq location)

theorem SameShape.follow_eq (h : SameShape tree other) (here : Location) (segment : Text) :
    tree.follow here segment = other.follow here segment := by
  rw [follow, follow, h.isDirectory_eq, h.has_eq]

/-- **A path leads to the same place** in trees with the same places. -/
theorem SameShape.locate_eq (h : SameShape tree other) (directory : Location) (path : Text) :
    tree.locate directory path = other.locate directory path := by
  have hfollow : tree.follow = other.follow := funext fun here => funext fun segment =>
    h.follow_eq here segment
  rw [locate, locate, hfollow]

/-! ### Writing -/

/-- Writing a file that is there answers no question about directories differently. -/
theorem any_writeIn (bytes : ByteArray) (location place : Location)
    (entries : List (Location × Content)) (h : (fileIn? location entries).isSome = true) :
    (writeIn location bytes entries).any (fun entry =>
        if entry.1 = place then entry.2.isDirectory else place.isPrefixOf entry.1)
      = entries.any fun entry =>
        if entry.1 = place then entry.2.isDirectory else place.isPrefixOf entry.1 := by
  induction entries with
  | nil => simp [fileIn?] at h
  | cons entry entries ih =>
      obtain ⟨first, held⟩ := entry
      by_cases hp : first = location
      · cases held with
        | directory => simp [fileIn?, hp] at h
        | file old => simp [writeIn, hp, Content.isDirectory]
      · have hrest : (fileIn? location entries).isSome = true := by simpa [fileIn?, hp] using h
        simp only [writeIn, if_neg hp, List.any_cons, ih hrest]

theorem isDirectory_writeAt (h : (tree.fileAt? location).isSome = true) (bytes : ByteArray)
    (place : Location) : (tree.writeAt location bytes).isDirectory place = tree.isDirectory place :=
  congrArg (place.isEmpty || ·) (any_writeIn bytes location place tree.entries h)

/-- **Writing a file that is there keeps the places.** -/
theorem sameShape_writeAt (h : (tree.fileAt? location).isSome = true) (bytes : ByteArray) :
    SameShape (tree.writeAt location bytes) tree where
  isDirectory_eq := isDirectory_writeAt h bytes
  has_eq place := by
    have hfile : ((tree.writeAt location bytes).fileAt? place).isSome
        = (tree.fileAt? place).isSome := by
      by_cases hp : location = place
      · subst hp
        rw [fileAt?_writeAt, h]
        rfl
      · rw [fileAt?_writeAt_of_ne bytes hp]
    rw [has, has, hfile, isDirectory_writeAt h bytes]

/-- Entries are changed in place, so that the order of two changes does not show. -/
theorem writeIn_comm {first second : Location} (hne : first ≠ second) (x y : ByteArray)
    (entries : List (Location × Content)) (h : (fileIn? first entries).isSome = true) :
    writeIn first x (writeIn second y entries) = writeIn second y (writeIn first x entries) := by
  induction entries with
  | nil => simp [fileIn?] at h
  | cons entry entries ih =>
      obtain ⟨place, held⟩ := entry
      by_cases hfirst : place = first
      · simp [writeIn, hfirst, hne]
      · have hrest : (fileIn? first entries).isSome = true := by simpa [fileIn?, hfirst] using h
        by_cases hsecond : place = second
        · simp [writeIn, hsecond, Ne.symm hne]
        · simp [writeIn, hfirst, hsecond, ih hrest]

/-- **Files at different places are written in either order**, where they are there. -/
theorem write_comm {first second : Location} {path other : Text}
    (hpath : tree.locate directory path = .ok first)
    (hother : tree.locate directory other = .ok second) (hne : first ≠ second)
    (hfirst : (tree.fileAt? first).isSome = true) (hsecond : (tree.fileAt? second).isSome = true)
    (x y : Text) :
    (tree.write directory path x).write directory other y
      = (tree.write directory other y).write directory path x := by
  -- neither write moves what the other path leads to
  have hother' : (tree.writeAt first (encode x)).locate directory other = .ok second :=
    ((sameShape_writeAt hfirst _).locate_eq directory other).trans hother
  have hpath' : (tree.writeAt second (encode y)).locate directory path = .ok first :=
    ((sameShape_writeAt hsecond _).locate_eq directory path).trans hpath
  simp only [write, hpath, hother, hpath', hother']
  exact congrArg mk (writeIn_comm hne _ _ tree.entries hfirst).symm

/-! ### Reading -/

/-- A path that leads to a text leads to a file. -/
theorem exists_of_read (h : tree.read directory path = .ok content) :
    ∃ location bytes, tree.locate directory path = .ok location
      ∧ tree.fileAt? location = some bytes ∧ decode? bytes = some content := by
  rw [read] at h
  cases hl : tree.locate directory path with
  | error fault => simp [hl] at h
  | ok location =>
      cases hf : tree.fileAt? location with
      | none => simp [hl, hf] at h
      | some bytes =>
          cases hd : decode? bytes with
          | none => simp [hl, hf, hd] at h
          | some text =>
              obtain rfl : text = content := by simpa [hl, hf, hd] using h
              exact ⟨location, bytes, rfl, hf, hd⟩

/-- A text is read from the file that holds its bytes. -/
theorem read_of_fileAt? (hl : tree.locate directory path = .ok location)
    (hf : tree.fileAt? location = some (encode content)) :
    tree.read directory path = .ok content := by
  rw [read, hl]
  simp only [hf, decode?_encode]

theorem isFile_of_read (h : tree.read directory path = .ok content) :
    tree.isFile directory path = true := by
  obtain ⟨location, bytes, hl, hf, -⟩ := exists_of_read h
  rw [isFile, hl]
  simp [hf]

/-- **A text that is written is read**, where there was a text before. -/
theorem read_write (h : tree.read directory path = .ok content) (text : Text) :
    (tree.write directory path text).read directory path = .ok text := by
  obtain ⟨location, bytes, hl, hf, -⟩ := exists_of_read h
  have hshape : SameShape (tree.writeAt location (encode text)) tree :=
    sameShape_writeAt (Option.isSome_of_eq_some hf) (encode text)
  have hl' := (hshape.locate_eq directory path).trans hl
  rw [write, hl]
  exact read_of_fileAt? hl' (fileAt?_writeAt tree location (encode text))

end FileTree

end GitHooks
