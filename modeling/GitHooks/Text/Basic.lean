/-
**Texts and their pieces.**

A text is the list of its characters, so that everything said about a line, a path or a message is
said by recursion on that list.  Looking for a piece of text, cutting a text at a separator and
replacing a piece everywhere are the three searches the rest of the library is built from.  Each
walks the characters once and counts, after a hit, the characters of the piece that are still to
be passed over; so no search needs a measure, and hits never overlap.

Main definitions:

* `Text` — a list of characters; string literals are read as texts;
* `Text.dropLeading?`, `Text.dropTrailing?` — what is left without a given beginning or end;
* `Text.occursIn` — whether a piece occurs in a text;
* `Text.cutAt?` — the parts before and after the first occurrence of a piece;
* `Text.splitOn`, `Text.joinWith` — cutting at every separator, and putting together again;
* `Text.replaceAll` — every occurrence of a piece replaced;
* `Text.byteLength` — the length of a text in UTF-8.
-/

set_option relaxedAutoImplicit false
set_option autoImplicit false

namespace GitHooks

/-- A text is the list of its characters. -/
abbrev Text := List Char

instance : Coe String Text := ⟨String.toList⟩

namespace Text

/-! ### Beginnings and ends -/

/-- Whether `t` begins with `piece`. -/
def startsWith (t piece : Text) : Bool := piece.isPrefixOf t

/-- Whether `t` ends with `piece`. -/
def endsWith (t piece : Text) : Bool := piece.isSuffixOf t

/-- What is left of `t` without its beginning `piece`. -/
def dropLeading? (piece t : Text) : Option Text :=
  if piece.isPrefixOf t then some (t.drop piece.length) else none

/-- What is left of `t` without its end `piece`. -/
def dropTrailing? (piece t : Text) : Option Text :=
  if piece.isSuffixOf t then some (t.take (t.length - piece.length)) else none

theorem dropLeading?_append (piece t : Text) : dropLeading? piece (piece ++ t) = some t := by
  simp [dropLeading?]

/-! ### Searching -/

/-- Whether `piece` occurs somewhere in a text. -/
def occursIn (piece : Text) : Text → Bool
  | [] => piece.isEmpty
  | c :: t => piece.isPrefixOf (c :: t) || occursIn piece t

/-- The parts before and after the first occurrence of `piece`. -/
def cutAt? (piece : Text) : Text → Option (Text × Text)
  | [] => if piece.isEmpty then some ([], []) else none
  | c :: t =>
    if piece.isPrefixOf (c :: t) then some ([], (c :: t).drop piece.length)
    else (cutAt? piece t).map fun cut => (c :: cut.1, cut.2)

/-- Two pieces of a text around the first character that satisfies `p`. -/
def cutWhere? (p : Char → Bool) : Text → Option (Text × Text)
  | [] => none
  | c :: t => if p c then some ([], t) else (cutWhere? p t).map fun cut => (c :: cut.1, cut.2)

/-! ### Order -/

/-- Whether two texts are in the order of their code points. -/
def isOrdered (t u : Text) : Bool := !decide (u < t)

/-! ### Separators -/

/-- The pieces of a text between separators, where `passing` characters of a separator that has
already been met are still to be passed over. -/
def splitFrom (separator : Text) : Nat → Text → List Text
  | _, [] => [[]]
  | passing + 1, _ :: t => splitFrom separator passing t
  | 0, c :: t =>
    if separator.isPrefixOf (c :: t) then [] :: splitFrom separator (separator.length - 1) t
    else (splitFrom separator 0 t).modifyHead (c :: ·)

/-- The pieces of a text between separators; there is one more piece than separators. -/
def splitOn (separator t : Text) : List Text := splitFrom separator 0 t

/-- The pieces put together with a separator between neighbours. -/
def joinWith (separator : Text) : List Text → Text
  | [] => []
  | [t] => t
  | t :: u :: rest => t ++ separator ++ joinWith separator (u :: rest)

@[simp] theorem joinWith_nil (separator : Text) : joinWith separator [] = [] := rfl

@[simp] theorem joinWith_singleton (separator t : Text) : joinWith separator [t] = t := rfl

theorem joinWith_cons_cons (separator t u : Text) (rest : List Text) :
    joinWith separator (t :: u :: rest) = t ++ separator ++ joinWith separator (u :: rest) := rfl

/-! ### Replacing -/

/-- A text with every occurrence of `piece` replaced, where `passing` characters of an occurrence
that has already been replaced are still to be passed over. -/
def replaceFrom (piece substitute : Text) : Nat → Text → Text
  | _, [] => []
  | passing + 1, _ :: t => replaceFrom piece substitute passing t
  | 0, c :: t =>
    if piece.isPrefixOf (c :: t) then
      substitute ++ replaceFrom piece substitute (piece.length - 1) t
    else c :: replaceFrom piece substitute 0 t

/-- A text with every occurrence of `piece` replaced, from left to right and without overlap. -/
def replaceAll (piece substitute t : Text) : Text := replaceFrom piece substitute 0 t

/-! ### Counting -/

/-- The number of bytes a text takes in UTF-8. -/
def byteLength : Text → Nat
  | [] => 0
  | c :: t => c.utf8Size + byteLength t

@[simp] theorem byteLength_nil : byteLength [] = 0 := rfl

@[simp] theorem byteLength_cons (c : Char) (t : Text) :
    byteLength (c :: t) = c.utf8Size + byteLength t := rfl

theorem byteLength_append (t u : Text) : byteLength (t ++ u) = byteLength t + byteLength u := by
  induction t with
  | nil => simp
  | cons c t ih => simp [ih, Nat.add_assoc]

/-- The decimal digits of a number. -/
def ofNat (n : Nat) : Text := Nat.toDigits 10 n

/-- The decimal digits of a number, after a minus sign when it is negative. -/
def ofInt : Int → Text
  | Int.ofNat n => ofNat n
  | Int.negSucc n => '-' :: ofNat (n + 1)

/-- The number that a list of decimal digits stands for. -/
def digitsValue (t : Text) : Nat := t.foldl (fun n c => 10 * n + (c.toNat - '0'.toNat)) 0

/-- The value of a hexadecimal digit. -/
def hexDigitValue (c : Char) : Nat :=
  if c.isDigit then c.toNat - '0'.toNat else c.toLower.toNat - 'a'.toNat + 10

end Text

end GitHooks
