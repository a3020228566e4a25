/-
**Spellings.**

A table pairs spellings in use outside the United States with the ones in use there.  A line is
searched for the former with one pattern, in which they are alternatives in any case, with a plural
ending or without, between two boundaries of words.  The suggestion for a word that is found follows
the case of the word and keeps its ending.

Case is folded as in Unicode: beside the letters of ASCII the Kelvin sign stands for a letter k,
and the long s for a letter s.  But the lower case of the long s is no letter of ASCII, so a word
can be found that is not in the table; it is passed over.

Main definitions:

* `Spelling.dictionary` — the table;
* `Spelling.matchCase` — a spelling in the case of a word;
* `Spelling.spelled`, `Spelling.ended` — the pattern, up to the end of a spelling and behind it;
* `Spelling.hits` — the words that the pattern finds on a line;
* `Spelling.check`, `Spelling.correct` — the findings of a line, and the line with all of them
  corrected.
-/

import GitHooks.Text.Pattern

set_option relaxedAutoImplicit false
set_option autoImplicit false

namespace GitHooks

namespace Spelling

open Text

/-! ### The table -/

/-- A spelling and its counterpart, in lower case. -/
structure Pair where
  found : Text
  wanted : Text
deriving DecidableEq, Repr, Inhabited

/-- The spellings and their counterparts. -/
def dictionary : List Pair := [
  ⟨"characterise", "characterize"⟩,
  ⟨"initialise", "initialize"⟩,
  ⟨"instantiater", "instantiator"⟩,
  ⟨"organise", "organize"⟩,
  ⟨"parametrise", "parametrize"⟩,
  ⟨"prioritise", "prioritize"⟩,
  ⟨"specialise", "specialize"⟩,
  ⟨"analyse", "analyze"⟩,
  ⟨"catalyse", "catalyze"⟩,
  ⟨"armour", "armor"⟩,
  ⟨"behaviour", "behavior"⟩,
  ⟨"colour", "color"⟩,
  ⟨"flavour", "flavor"⟩,
  ⟨"neighbour", "neighbor"⟩,
  ⟨"centre", "center"⟩,
  ⟨"fibre", "fiber"⟩,
  ⟨"litre", "liter"⟩,
  ⟨"anaesthesia", "anesthesia"⟩,
  ⟨"caesium", "cesium"⟩,
  ⟨"defence", "defense"⟩,
  ⟨"licence", "license"⟩,
  ⟨"practise", "practice"⟩,
  ⟨"acknowledgement", "acknowledgment"⟩,
  ⟨"ageing", "aging"⟩,
  ⟨"judgement", "judgment"⟩,
  ⟨"analogue", "analog"⟩,
  ⟨"dialogue", "dialog"⟩,
  ⟨"enrol", "enroll"⟩,
  ⟨"fulfil", "fulfill"⟩,
  ⟨"skilful", "skillful"⟩,
  ⟨"labelled", "labeled"⟩,
  ⟨"signalling", "signaling"⟩]

/-! ### Case -/

/-- The Kelvin sign, whose lower case is the letter k. -/
def kelvinSign : Char := '\u212a'

/-- The long s, which folds to the letter s. -/
def longS : Char := '\u017f'

/-- The lower case of a letter of a word. -/
def lower (c : Char) : Char := if c = kelvinSign then 'k' else c.toLower

/-- Whether a letter of a word is upper case. -/
def isUpper (c : Char) : Bool := c = kelvinSign || c.isUpper

/-- The letter that a character stands for when its case does not matter. -/
def fold (c : Char) : Char := if c = longS then 's' else lower c

/-- A spelling with its first letter in upper case. -/
def capitalize : Text → Text
  | [] => []
  | c :: t => c.toUpper :: t

/-- A spelling in the case of a word: upper case when all of the word is, capitalised when only
its first letter is, and as it stands otherwise. -/
def matchCase (word spelling : Text) : Text :=
  match word with
  | [] => spelling
  | first :: rest =>
    if isUpper first then
      if !rest.isEmpty && rest.all isUpper then spelling.map Char.toUpper
      else if rest.all fun c => !isUpper c then capitalize spelling
      else spelling
    else spelling

/-! ### The pattern -/

/-- A letter in any case. -/
def letter (c : Char) : Pattern := .one fun d => fold d == c

/-- A spelling in any case. -/
def anyCase : Text → Pattern
  | [] => .literal []
  | c :: spelling => .seq (letter c) (anyCase spelling)

/-- The spellings that are looked for, the longest first, so that none is tried before a longer one
that begins with it. -/
def spellings : List Text :=
  (dictionary.map Pair.found).mergeSort fun t u => byteLength u ≤ byteLength t

/-- A spelling of the table in any case, where a word begins. -/
def spelled : Pattern := .seq .boundary (.anyOf (spellings.map anyCase))

/-- A plural ending if there is one, where a word ends. -/
def ended : Pattern := .seq (.either (letter 's') (.literal [])) .boundary

/-! ### The search -/

/-- A word that the pattern matches. -/
structure Hit where
  /-- How many characters stand before it. -/
  start : Nat
  /-- The word without its ending. -/
  word : Text
  ending : Text
deriving DecidableEq, Repr, Inhabited

namespace Hit

/-- The word with its ending. -/
def whole (hit : Hit) : Text := hit.word ++ hit.ending

end Hit

/-- The ways to match the pattern at a place, in the order in which they are tried. -/
def hitsAt (place : Text × Text) : List Hit :=
  (spelled.ends place).flatMap fun middle =>
    (ended.ends middle).map fun last =>
      ⟨place.1.length, between place middle, between middle last⟩

/-- What the pattern matches in a text behind another, from left to right and without overlap, where
`passing` characters of a hit that has already been met are still to be passed over. -/
def hitsFrom (before : Text) : Nat → Text → List Hit
  | _, [] => []
  | passing + 1, c :: t => hitsFrom (before ++ [c]) passing t
  | 0, c :: t =>
    match (hitsAt (before, c :: t)).head? with
    | some hit => hit :: hitsFrom (before ++ [c]) (hit.whole.length - 1) t
    | none => hitsFrom (before ++ [c]) 0 t

/-- The words that the pattern finds on a line, from left to right. -/
def hits (line : Text) : List Hit := hitsFrom [] 0 line

/-! ### Findings -/

/-- The counterpart of a word in any case, in the case of the word. -/
def counterpart? (word : Text) : Option Text :=
  (dictionary.find? fun pair => pair.found = word.map lower).map fun pair =>
    matchCase word pair.wanted

/-- What is suggested for a word that is found: its counterpart, with the ending. -/
def Hit.suggestion? (hit : Hit) : Option Text := (counterpart? hit.word).map (· ++ hit.ending)

/-- A word of the table found on a line. -/
structure Finding where
  /-- The position of its first character, from one. -/
  column : Nat
  found : Text
  suggestion : Text
deriving DecidableEq, Repr, Inhabited

/-- What is told about a word that is found, if it is in the table. -/
def Hit.finding? (hit : Hit) : Option Finding :=
  hit.suggestion?.map fun suggestion => ⟨hit.start + 1, hit.whole, suggestion⟩

/-- The findings of a line, from left to right. -/
def check (line : Text) : List Finding := (hits line).filterMap Hit.finding?

/-- A line from some character on, with each hit replaced by what is suggested for it, if anything
is. -/
def replaceHits (line : Text) (start : Nat) : List Hit → Text
  | [] => line.drop start
  | hit :: others =>
    (line.take hit.start).drop start ++ (hit.suggestion?.getD hit.whole
      ++ replaceHits line (hit.start + hit.whole.length) others)

/-- A line with every finding corrected. -/
def correct (line : Text) : Text := replaceHits line 0 (hits line)

/-- What a user is told about a finding on a line with the given number. -/
def Finding.message (lineNumber : Nat) (finding : Finding) : Text :=
  ofNat lineNumber ++ ":" ++ ofNat finding.column ++ ": non-US spelling '" ++ finding.found
    ++ "', use '" ++ finding.suggestion ++ "'"

end Spelling

end GitHooks
