/-
**Scalars of YAML.**

A scalar is written in quotes, plainly, or as a block of indented lines.  In the first two, runs
of blanks between words are folded.  A plain scalar ends where a comment, a mapping or, within
brackets, a delimiter begins, and where the next line is indented too little.

Main definitions:

* `Yaml.quoted` — scalars in single or double quotes;
* `Yaml.plain` — plain scalars;
* `Yaml.BlockHeader`, `Yaml.BlockText`, `Yaml.block` — blocks of lines.
-/

import GitHooks.Config.Yaml.Characters

set_option relaxedAutoImplicit false
set_option autoImplicit false

namespace GitHooks

namespace Config

namespace Yaml

open Text

/-! ### Quoted scalars -/

/-- A character with a code of exactly `count` hexadecimal digits. -/
def codePoint (count : Nat) : Reader Char Char := do
  let digits ← Reader.exactly count fun c =>
    c.isDigit || ('a' ≤ c && c ≤ 'f') || ('A' ≤ c && c ≤ 'F')
  let code := digits.foldl (fun n c => 16 * n + hexDigitValue c) 0
  Reader.require (code < 0xD800 || (0xE000 ≤ code && code < 0x110000))
  return Char.ofNat code

/-- A character written behind a backslash. -/
def escaped : Reader Char Char := do
  Reader.only '\\'
  match ← Reader.next fun _ => true with
  | '0' => return '\x00'
  | 'a' => return '\x07'
  | 'b' => return '\x08'
  | 't' => return '\t'
  | '\t' => return '\t'
  | 'n' => return '\n'
  | 'v' => return '\x0b'
  | 'f' => return '\x0c'
  | 'r' => return '\r'
  | 'e' => return '\x1b'
  | ' ' => return ' '
  | '"' => return '"'
  | '/' => return '/'
  | '\\' => return '\\'
  | 'N' => return '\u0085'
  | '_' => return '\u00a0'
  | 'L' => return '\u2028'
  | 'P' => return '\u2029'
  | 'x' => codePoint 2
  | 'u' => codePoint 4
  | 'U' => codePoint 8
  | _ => failure

/-- Refuses the marker of a document at the beginning of a line, where `blanks` lead to. -/
def noDocumentMarker (blanks : Text) : Reader Char Unit := fun rest =>
  if (blanks.getLast?.any isBreak) && atDocumentMarker rest then none else some ((), rest)

/-- A run of blanks within quotes, folded. -/
def quotedBlanks : Reader Char Text := do
  let blanks ← Reader.takeWhile1 isSpacing
  noDocumentMarker blanks
  return foldBlanks blanks

/-- A line break behind a backslash, and the blanks that follow; only further line breaks count. -/
def escapedBreak : Reader Char Text := do
  Reader.only '\\'
  lineBreak
  let blanks ← Reader.takeWhile isSpacing
  noDocumentMarker ('\n' :: blanks)
  return (lineBreaks blanks).flatten

/-- A piece of a scalar in single quotes, where a quote is written twice. -/
def singleQuotedPiece : Reader Char Text :=
  (do Reader.word "''".toList; return ['\''])
    <|> quotedBlanks
    <|> Reader.takeWhile1 fun c => !isSpacing c && c != '\''

/-- A piece of a scalar in double quotes, where a backslash escapes. -/
def doubleQuotedPiece : Reader Char Text :=
  escapedBreak
    <|> (do return [← escaped])
    <|> quotedBlanks
    <|> Reader.takeWhile1 fun c => !isSpacing c && c != '"' && c != '\\'

/-- A scalar between two quotes. -/
def quoted (quote : Char) : Reader Char Text := do
  Reader.only quote
  let pieces ← Reader.many (if quote = '\'' then singleQuotedPiece else doubleQuotedPiece)
  Reader.only quote
  return pieces.flatten

/-! ### Plain scalars -/

/-- The number of characters of a plain word; none when it is not well written.  Within brackets a
delimiter ends it, but not right behind a colon. -/
def wordLength (inFlow : Bool) : Text → Option Nat
  | [] => some 0
  | c :: rest =>
    if isSpacing c then some 0
    else if inFlow && c == ':' && rest.head?.any fun d => isFlowIndicator d || d == '?' then none
    else if c == ':' && atSpacing rest then some 0
    else if inFlow && isFlowIndicator c then some 0
    else (wordLength inFlow rest).map (· + 1)

/-- A word of a plain scalar. -/
def plainWord (inFlow : Bool) : Reader Char Text := do
  let length ← Reader.ofOption (wordLength inFlow (← get))
  Reader.require (0 < length)
  Reader.exactly length fun _ => true

/-- The column that a run of blanks with a line break in it leads to. -/
def columnAfter (blanks : Text) : Nat := (blanks.reverse.takeWhile fun c => !isBreak c).length

/-- Whether a tab stands where a run of blanks should indent a line. -/
def hasTabIndent (indent : Nat) (blanks : Text) : Bool :=
  let lines := (blanks.dropWhile fun c => !isBreak c).foldr
    (fun c lines =>
      if isBreak c then [] :: lines else lines.modifyHead (c :: ·)) [[]]
  lines.any fun line => (line.take indent).contains '\t'

/-- The blanks behind a word of a plain scalar. -/
def plainBlanks (indent : Nat) : Reader Char Text := do
  let blanks ← Reader.takeWhile isSpacing
  Reader.require !hasTabIndent indent blanks
  return blanks

/-- Whether a run of blanks leads on to more of a plain scalar. -/
def goesOn (inFlow : Bool) (indent : Nat) (blanks rest : Text) : Bool :=
  let broken := blanks.any isBreak
  !(blanks.getLast?.any isBreak && atDocumentMarker rest) && rest.head? != some '#'
    && (inFlow || !broken || indent ≤ columnAfter blanks)

/-- Blanks and the word they lead on to. -/
def plainMore (inFlow : Bool) (indent : Nat) : Reader Char Text := do
  let blanks ← plainBlanks indent
  Reader.require (!blanks.isEmpty && goesOn inFlow indent blanks (← get))
  return foldBlanks blanks ++ (← plainWord inFlow)

/-- A plain scalar, and whether a line break follows it.  The blanks behind it are taken too, and
must not lead on to a word that is not well written. -/
def plain (inFlow : Bool) (indent : Nat) : Reader Char (Text × Bool) := do
  let first ← plainWord inFlow
  let others ← Reader.many (plainMore inFlow indent)
  let blanks ← plainBlanks indent
  let rest ← get
  Reader.require (!goesOn inFlow indent blanks rest || (wordLength inFlow rest).isSome)
  return (first ++ others.flatten, blanks.any isBreak)

/-! ### Blocks of lines -/

/-- What is kept of the line breaks at the end of a block. -/
inductive Chomping where
  | strip
  | clip
  | keep
deriving DecidableEq, Repr, Inhabited

/-- What the first line of a block says. -/
structure BlockHeader where
  /-- Whether lines stay lines. -/
  literal : Bool
  chomping : Chomping
  /-- How far the lines are indented, if that is said. -/
  increment : Option Nat
deriving Repr, Inhabited

/-- The sign that says what is kept of line breaks. -/
def chompingSign : Reader Char Chomping :=
  (do Reader.only '+'; return .keep) <|> (do Reader.only '-'; return .strip)

/-- The digit that says how far lines are indented. -/
def incrementDigit : Reader Char Nat := do
  let c ← Reader.next Char.isDigit
  Reader.require (c != '0')
  return digitsValue [c]

/-- The first line of a block. -/
def blockHeader : Reader Char BlockHeader := do
  let literal := (← Reader.next fun c => c == '|' || c == '>') == '|'
  let before ← Reader.optional? chompingSign
  let increment ← Reader.optional? incrementDigit
  let after ← if before.isNone && increment.isSome then Reader.optional? chompingSign else pure none
  Reader.skipWhile isBlank
  if (← Reader.peek?) = some '#' then Reader.skipWhile fun c => !isBreak c
  lineBreak <|> Reader.finished
  return ⟨literal, ((before.or after).getD .clip), increment⟩

/-- A line of a block and the line break behind it, both as they are written. -/
structure RawLine where
  content : Text
  ending : Text
deriving Repr, Inhabited

/-- The lines of a text; what follows the last line break is a line if it is not empty. -/
def rawLines : Text → List RawLine
  | [] => []
  | c :: rest =>
    match rawLines rest with
    | [] => if isBreak c then [⟨[], [c]⟩] else [⟨[c], []⟩]
    | line :: lines =>
      if c == '\r' && line.content.isEmpty && line.ending.head? == some '\n' then
        ⟨[], c :: line.ending⟩ :: lines
      else if isBreak c then ⟨[], [c]⟩ :: line :: lines
      else ⟨c :: line.content, line.ending⟩ :: lines

/-- What the line break behind a line stands for. -/
def RawLine.breakText (line : RawLine) : Text :=
  match line.ending with
  | [] => []
  | c :: _ => Yaml.breakText c

/-- The indentation of a block that does not say it: the deepest of its first line that is not
empty and of the empty ones before it.  A tab cannot indent that line. -/
def detectIndent (deepest : Nat) : List RawLine → Option Nat
  | [] => some deepest
  | line :: lines =>
    let spaces := (line.content.takeWhile (· == ' ')).length
    let rest := line.content.drop spaces
    let deepest := max deepest spaces
    if rest.head? = some '\t' then none
    else if rest.isEmpty && !line.ending.isEmpty then detectIndent deepest lines
    else some deepest

/-- The text of a block read so far. -/
structure BlockText where
  text : Text
  /-- The line break behind the last line with content. -/
  pending : Text
  /-- The line breaks of the empty lines behind it. -/
  empty : Text
  /-- Whether the last line with content began with a blank. -/
  blankLed : Bool
deriving Repr, Inhabited

namespace BlockText

/-- The text with one more line that has content. -/
def addLine (literal : Bool) (content ending : Text) (block : BlockText) : BlockText :=
  let blankLed := content.head?.any isBlank
  let folded := !literal && block.pending == ['\n'] && !block.blankLed && !blankLed
  let join := if folded then if block.empty.isEmpty then [' '] else [] else block.pending
  ⟨block.text ++ join ++ block.empty ++ content, ending, [], blankLed⟩

/-- The text with what is kept of the line breaks at its end. -/
def chomp (chomping : Chomping) (block : BlockText) : Text :=
  match chomping with
  | .strip => block.text
  | .clip => block.text ++ block.pending
  | .keep => block.text ++ block.pending ++ block.empty

end BlockText

/-- The text of the lines of a block, and the characters left behind it. -/
def blockLines (literal : Bool) (indent : Nat) (block : BlockText) :
    List RawLine → Option (BlockText × Text)
  | [] => some (block, [])
  | line :: lines =>
    let spaces := min indent (line.content.takeWhile (· == ' ')).length
    let rest := line.content.drop spaces
    if spaces < indent ∧ rest.head? = some '\t' then none
    else if rest.isEmpty && !line.ending.isEmpty then
      blockLines literal indent { block with empty := block.empty ++ line.breakText } lines
    else if spaces = indent ∧ !rest.isEmpty then
      blockLines literal indent (block.addLine literal rest line.breakText) lines
    else some (block, rest ++ line.ending ++ lines.flatMap fun l => l.content ++ l.ending)

/-- A block of lines below a collection that is indented to column `outer`. -/
def block (outer : Int) : Reader Char Text := do
  let header ← blockHeader
  let lines := rawLines (← get)
  let indent ← match header.increment with
    | some increment => pure (outer.toNat + increment)
    | none => do
      let deepest ← Reader.ofOption (detectIndent 0 lines)
      pure (max deepest (max (outer + 1).toNat 1))
  let (text, rest) ← Reader.ofOption (blockLines header.literal indent ⟨[], [], [], false⟩ lines)
  set rest
  return text.chomp header.chomping

end Yaml

end Config

end GitHooks
