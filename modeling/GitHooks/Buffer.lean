/-
**Files as buffers of lines.**

A buffer holds the lines of a file together with the two facts about its layout that an edit
has to keep: which line ending it uses, and whether the last line has one.  A file that contains
a carriage return followed by a line feed anywhere is held to use that pair throughout.

Main definitions:

* `Newline` — the two line endings;
* `Buffer` — lines, line ending, final line ending;
* `Buffer.parse`, `Buffer.render` — reading a buffer from a text and writing it back;
* `Buffer.withLines` — the same layout around other lines.
-/

import GitHooks.Text.Basic

set_option relaxedAutoImplicit false
set_option autoImplicit false

namespace GitHooks

open Text

/-! ### Line endings -/

/-- How the lines of a file end. -/
inductive Newline where
  | lf
  | crlf
deriving DecidableEq, Repr, Inhabited

/-- The characters of a line ending. -/
def Newline.text : Newline → Text
  | lf => "\n"
  | crlf => "\r\n"

/-- The line ending a text uses. -/
def Newline.ofText (content : Text) : Newline :=
  if occursIn "\r\n" content then crlf else lf

/-! ### Buffers -/

/-- The lines of a file and its layout. -/
structure Buffer where
  /-- The lines, without their endings. -/
  lines : List Text
  /-- What separates the lines. -/
  newline : Newline
  /-- Whether the last line is ended too. -/
  finalNewline : Bool
deriving DecidableEq, Repr, Inhabited

namespace Buffer

/-- A text without the line ending it may end with. -/
def bodyOf (newline : Newline) (content : Text) : Text :=
  let body := (dropTrailing? "\n" content).getD content
  match newline with
  | Newline.lf => body
  | Newline.crlf => (dropTrailing? "\r" body).getD body

/-- The buffer that a text is read as. -/
def parse (content : Text) : Buffer :=
  let newline := Newline.ofText content
  { lines := if content.isEmpty then [] else splitOn newline.text (bodyOf newline content)
    newline
    finalNewline := endsWith content "\n" }

/-- The text that a buffer is written as. -/
def render (buffer : Buffer) : Text :=
  joinWith buffer.newline.text buffer.lines
    ++ if buffer.finalNewline then buffer.newline.text else []

/-- The same layout around other lines. -/
def withLines (buffer : Buffer) (lines : List Text) : Buffer := { buffer with lines }

@[simp] theorem withLines_lines (buffer : Buffer) (lines : List Text) :
    (buffer.withLines lines).lines = lines := rfl

@[simp] theorem withLines_newline (buffer : Buffer) (lines : List Text) :
    (buffer.withLines lines).newline = buffer.newline := rfl

@[simp] theorem withLines_finalNewline (buffer : Buffer) (lines : List Text) :
    (buffer.withLines lines).finalNewline = buffer.finalNewline := rfl

end Buffer

end GitHooks
