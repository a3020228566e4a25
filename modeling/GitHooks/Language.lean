/-
**Languages and their comments.**

A language is known by the extension of a file.  Its comments are opened by a marker and either
run to the end of the line or are closed by a second marker; a few languages also carry text for
the reader in a docstring at the top of a module.

Main definitions:

* `CommentStyle` — line comments or block comments, with their markers;
* `Language` — tag, extensions, comments, docstrings;
* `Language.all`, `Language.tags` — the known languages and their tags;
* `Language.ofPath?` — the language of a file;
* `CommentStyle.ofPath` — the comments used in a file, a hash sign where no language is known.

Main results:

* `Language.ofPath?_mem` — a language found for a file is one of the known ones.
-/

import GitHooks.Path

set_option relaxedAutoImplicit false
set_option autoImplicit false

namespace GitHooks

/-! ### Comments -/

/-- How comments are written. -/
inductive CommentStyle where
  /-- Comments that run to the end of the line. -/
  | line (marker : Text)
  /-- Comments that are closed by a marker of their own. -/
  | block (opening closing : Text)
deriving DecidableEq, Repr, Inhabited

namespace CommentStyle

/-- The marker that opens a comment. -/
def leading : CommentStyle → Text
  | line marker => marker
  | block opening _ => opening

/-- The marker that closes a comment, if one does. -/
def trailing? : CommentStyle → Option Text
  | line _ => none
  | block _ closing => some closing

@[simp] theorem leading_line (marker : Text) : (line marker).leading = marker := rfl

@[simp] theorem leading_block (opening closing : Text) :
    (block opening closing).leading = opening := rfl

@[simp] theorem trailing?_line (marker : Text) : (line marker).trailing? = none := rfl

@[simp] theorem trailing?_block (opening closing : Text) :
    (block opening closing).trailing? = some closing := rfl

/-- Comments after a hash sign. -/
def hash : CommentStyle := line "#"

/-- Comments after two slashes. -/
def slashes : CommentStyle := line "//"

/-- Comments after two dashes. -/
def dashes : CommentStyle := line "--"

/-- Comments between slash-star and star-slash. -/
def stars : CommentStyle := block "/*" "*/"

/-- Comments between the markers of hypertext. -/
def angles : CommentStyle := block "<!---" "-->"

end CommentStyle

/-! ### Languages -/

/-- A language that the hooks know. -/
structure Language where
  /-- The key of the language's block in a configuration. -/
  tag : Text
  /-- The extensions of its files, in lower case. -/
  extensions : List Text
  /-- How its comments are written. -/
  comments : CommentStyle
  /-- Whether a docstring at the top of a module can carry a notice. -/
  docstrings : Bool
deriving DecidableEq, Repr, Inhabited

namespace Language

/-- A language without docstrings. -/
def plain (tag : Text) (extensions : List Text) (comments : CommentStyle) : Language :=
  ⟨tag, extensions, comments, false⟩

/-- The language whose modules begin with a docstring. -/
def python : Language := ⟨"python", ["py", "pyi"], CommentStyle.hash, true⟩

/-- The languages that the hooks know. -/
def all : List Language := [
  plain "c" ["c", "h"] .stars,
  plain "cpp" ["cc", "cpp", "cxx", "hpp"] .slashes,
  plain "c-sharp" ["cs"] .stars,
  plain "css" ["css"] .stars,
  plain "dart" ["dart"] .slashes,
  plain "go" ["go"] .slashes,
  plain "html" ["htm", "html"] .angles,
  plain "java" ["java"] .slashes,
  plain "javascript" ["js", "cjs", "mjs"] .slashes,
  plain "kotlin" ["kt", "kts"] .slashes,
  plain "lua" ["lua"] .dashes,
  plain "markdown" ["md", "markdown"] .angles,
  plain "perl" ["pl", "pm"] .hash,
  plain "php" ["php"] .slashes,
  python,
  plain "ruby" ["rb"] .hash,
  plain "rust" ["rs"] .slashes,
  plain "scala" ["scala"] .slashes,
  plain "shell" ["sh", "bash"] .hash,
  plain "sql" ["sql"] .dashes,
  plain "swift" ["swift"] .slashes,
  plain "typescript" ["ts", "tsx"] .slashes,
  plain "toml" ["toml"] .hash,
  plain "yaml" ["yaml", "yml"] .hash]

/-- The tags of the languages, in their order. -/
def tags : List Text := all.map (·.tag)

/-- The language of a file, by its extension in any case. -/
def ofPath? (path : Text) : Option Language :=
  (Path.extension? path).bind fun extension =>
    all.find? fun language => language.extensions.contains (extension.map Char.toLower)

/-- A language found for a file is one of the known ones. -/
theorem ofPath?_mem {path : Text} {language : Language} (h : ofPath? path = some language) :
    language ∈ all := by
  simp only [ofPath?, Option.bind_eq_some_iff] at h
  obtain ⟨extension, -, hl⟩ := h
  exact List.mem_of_find?_eq_some hl

end Language

/-- The comments used in a file; a hash sign opens them where no language is known. -/
def CommentStyle.ofPath (path : Text) : CommentStyle :=
  ((Language.ofPath? path).map (·.comments)).getD CommentStyle.hash

end GitHooks
