/-
**Patterns that are tried in order.**

A pattern can often be matched in more than one way: where characters of a class may be repeated, or
where there are alternatives.  A search tries these ways in a fixed order, as many characters as
there are before fewer of them, and the first alternative before the second, and takes the first way
that can be gone to the end.  So what a pattern does is a list of places, in that order.

Main definitions:

* `Text.Pattern` — patterns;
* `Text.Pattern.anyOf` — the alternatives of a list;
* `Text.Pattern.ends` — the places where a pattern can end, in the order in which they are tried;
* `Text.between` — what stands between two places.
-/

import GitHooks.Text.Basic
import GitHooks.Text.Word

set_option relaxedAutoImplicit false
set_option autoImplicit false

namespace GitHooks

namespace Text

/-- The ways to cut a text behind characters of a class, as many of them as there are first. -/
def cuts (p : Char → Bool) : Text → List (Text × Text)
  | [] => [([], [])]
  | c :: t =>
    if p c then (cuts p t).map (fun cut => (c :: cut.1, cut.2)) ++ [([], c :: t)]
    else [([], c :: t)]

/-- What stands between two places of a text.  A place is what stands before it and what stands
behind it. -/
def between (first last : Text × Text) : Text := last.1.drop first.1.length

/-- Patterns. -/
inductive Pattern where
  /-- A text as it stands. -/
  | literal (piece : Text)
  /-- A character of a class. -/
  | one (p : Char → Bool)
  /-- Characters of a class, or none. -/
  | many (p : Char → Bool)
  /-- The beginning or the end of a word. -/
  | boundary
  /-- One pattern behind the other. -/
  | seq (first second : Pattern)
  /-- One pattern or the other. -/
  | either (first second : Pattern)

namespace Pattern

/-- The alternatives of a list, in order; without any, nothing is asked for. -/
def anyOf : List Pattern → Pattern
  | [] => literal []
  | [pattern] => pattern
  | pattern :: other :: others => either pattern (anyOf (other :: others))

/-- The places where a pattern can end that begins at a place, in the order in which they are
tried. -/
def ends : Pattern → Text × Text → List (Text × Text)
  | literal piece, (before, after) =>
    ((dropLeading? piece after).map fun rest => (before ++ piece, rest)).toList
  | one p, (before, after) =>
    match after with
    | [] => []
    | c :: rest => if p c then [(before ++ [c], rest)] else []
  | many p, (before, after) => (cuts p after).map fun cut => (before ++ cut.1, cut.2)
  | boundary, (before, after) =>
    if endsInWord before = startsInWord after then [] else [(before, after)]
  | seq first second, place => (first.ends place).flatMap second.ends
  | either first second, place => first.ends place ++ second.ends place

end Pattern

end Text

end GitHooks
