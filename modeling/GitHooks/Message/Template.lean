/-
**Templates of commit messages.**

A template is text with slots: a slot is an opening brace, text without braces and a closing
brace.  The slots name the subject, the issue ID and the body of a message; each of the three has
to be used, and no other.  Filling a template puts the values in place of the slots all at once,
so braces in a value mean nothing.

Main definitions:

* `Template.Slot` — the three slots;
* `Template.Token`, `Template.tokens` — a text cut into characters and slot names;
* `Template.Fault` — why a template is refused;
* `Template`, `Template.parse` — templates, and reading one;
* `Template.fill` — a template with values in its slots.
-/

import GitHooks.Text.Basic

set_option relaxedAutoImplicit false
set_option autoImplicit false

namespace GitHooks

open Text

namespace Template

/-! ### Tokens -/

/-- A piece of a text: a character, or what stands between a pair of braces. -/
inductive Token where
  | char (c : Char)
  | braced (name : Text)
deriving DecidableEq, Repr, Inhabited

/-- Whether a character is a brace. -/
def isBrace (c : Char) : Bool := c == '\x7b' || c == '\x7d'

/-- What stands between the braces that a text begins with. -/
def bracedAt? : Text → Option Text
  | c :: t =>
    if c = '\x7b' ∧ (t.dropWhile fun d => !isBrace d).head? = some '\x7d' then
      some (t.takeWhile fun d => !isBrace d)
    else none
  | [] => none

/-- The tokens of a text, where `passing` characters of a token already read are still to be
passed over. -/
def tokensFrom : Nat → Text → List Token
  | _, [] => []
  | passing + 1, _ :: t => tokensFrom passing t
  | 0, c :: t =>
    match bracedAt? (c :: t) with
    | some name => Token.braced name :: tokensFrom (name.length + 1) t
    | none => Token.char c :: tokensFrom 0 t

/-- The tokens of a text. -/
def tokens (t : Text) : List Token := tokensFrom 0 t

/-! ### Slots -/

/-- What a template has a place for. -/
inductive Slot where
  | subject
  | issueId
  | body
deriving DecidableEq, Repr, Inhabited

namespace Slot

/-- The slots, in the order in which missing ones are told. -/
def all : List Slot := [subject, issueId, body]

/-- The name of a slot. -/
def name : Slot → Text
  | subject => "subject"
  | issueId => "issue_id"
  | body => "body"

/-- The slot of a name. -/
def ofName? (text : Text) : Option Slot := all.find? fun slot => slot.name = text

end Slot

/-- A piece of a template. -/
inductive Piece where
  | char (c : Char)
  | slot (place : Slot)
deriving DecidableEq, Repr, Inhabited

/-- Why a template is refused. -/
inductive Fault where
  /-- A slot has a name that is none of the three. -/
  | unknown (template name : Text)
  /-- Some of the three slots are not used. -/
  | missing (template : Text) (slots : List Slot)
deriving DecidableEq, Repr, Inhabited

/-- A name in braces. -/
def inBraces (name : Text) : Text := '\x7b' :: (name ++ ['\x7d'])

/-- What a user is told about a template that is refused. -/
def Fault.message : Fault → Text
  | unknown template name =>
    "template '" ++ template ++ "' uses unknown placeholder " ++ inBraces name ++ "; only "
      ++ inBraces "subject" ++ ", " ++ inBraces "issue_id" ++ " and " ++ inBraces "body"
      ++ " are allowed"
  | missing template slots =>
    "template '" ++ template ++ "' is missing required placeholder(s): "
      ++ joinWith ", " (slots.map fun slot => inBraces slot.name)

/-- The names of the slots among some tokens. -/
def namesOf (tokens : List Token) : List Text :=
  tokens.filterMap fun token =>
    match token with
    | Token.char _ => none
    | Token.braced name => some name

/-- A token as a piece of a template; a name that is no slot's stays as it is written. -/
def piecesOf : Token → List Piece
  | Token.char c => [Piece.char c]
  | Token.braced name =>
    match Slot.ofName? name with
    | some slot => [Piece.slot slot]
    | none => (inBraces name).map Piece.char

@[simp] theorem Slot.ofName?_name (place : Slot) : Slot.ofName? place.name = some place := by
  cases place <;> decide

/-- Where the name of a slot stands in braces, a template has a place for the slot. -/
theorem slot_mem_flatMap_piecesOf {tokens : List Token} {place : Slot}
    (h : place.name ∈ namesOf tokens) : Piece.slot place ∈ tokens.flatMap piecesOf := by
  obtain ⟨token, htoken, hname⟩ := List.mem_filterMap.1 h
  cases token with
  | char c => cases hname
  | braced name =>
      obtain rfl := Option.some.inj hname
      refine List.mem_flatMap.2 ⟨_, htoken, ?_⟩
      rw [piecesOf, Slot.ofName?_name]
      exact List.mem_singleton_self _

end Template

/-- A template that uses each of the three slots and no other. -/
structure Template where
  pieces : List Template.Piece
  /-- Each slot is used. -/
  used : ∀ place ∈ Template.Slot.all, Template.Piece.slot place ∈ pieces
deriving DecidableEq, Repr

namespace Template

/-! ### Reading and filling -/

/-- The slots that are not used among some tokens. -/
def unused (tokens : List Token) : List Slot :=
  Slot.all.filter fun slot => !(namesOf tokens).contains slot.name

theorem slot_mem_of_unused_eq_nil {tokens : List Token} (h : unused tokens = []) :
    ∀ place ∈ Slot.all, Piece.slot place ∈ tokens.flatMap piecesOf := by
  intro place hplace
  have hcontains := List.filter_eq_nil_iff.1 h place hplace
  exact slot_mem_flatMap_piecesOf (by simpa using hcontains)

/-- The template that a text is read as. -/
def parse (text : Text) : Except Fault Template :=
  match (namesOf (tokens text)).find? fun name => (Slot.ofName? name).isNone with
  | some name => Except.error (Fault.unknown text name)
  | none =>
    if h : unused (tokens text) = [] then
      Except.ok ⟨(tokens text).flatMap piecesOf, slot_mem_of_unused_eq_nil h⟩
    else Except.error (Fault.missing text (unused (tokens text)))

/-- What stands in place of a piece. -/
def Piece.fill (values : Slot → Text) : Piece → Text
  | char c => [c]
  | slot place => values place

/-- A template with values in its slots. -/
def fill (template : Template) (values : Slot → Text) : Text :=
  template.pieces.flatMap (Piece.fill values)

/-- The text of the template used when none is given. -/
def standardText : Text :=
  inBraces "subject" ++ "\n\n[" ++ inBraces "issue_id" ++ "]\n" ++ inBraces "body"

end Template

end GitHooks
