/-
**What YAML stands for.**

The root of a document is a mapping.  A plain scalar without a tag is a truth value, an integer or
a floating point number if it is written like one, and a text otherwise; nothing stands for a
missing value.  An alias stands for the node of its number; as aliases can be nested, how many of
them are followed is bounded by the size of the document.

Main definitions:

* `Yaml.Resolution`, `Yaml.untagged` — what a plain scalar is;
* `Yaml.scalarValue?` — the value of a scalar with what is said of it;
* `Yaml.value` — the value of a node;
* `Yaml.parse?` — the table that a text is read as.
-/

import GitHooks.Config.Value
import GitHooks.Config.Yaml.Node
import GitHooks.Text.Space

set_option relaxedAutoImplicit false
set_option autoImplicit false

namespace GitHooks

namespace Config

namespace Yaml

open Text

/-! ### Numbers and words -/

/-- The truth value of a word. -/
def boolean? (t : Text) : Option Bool :=
  if t = "true" ∨ t = "True" ∨ t = "TRUE" then some true
  else if t = "false" ∨ t = "False" ∨ t = "FALSE" then some false
  else none

/-- Whether a word stands for a missing value. -/
def isNull (t : Text) : Bool := t = "null" || t = "Null" || t = "NULL" || t = "~"

/-- A text without the sign it begins with. -/
def dropSign (t : Text) : Text := ((dropLeading? "-" t).or (dropLeading? "+" t)).getD t

/-- Whether a text is decimal digits with a superfluous zero in front, which no number has. -/
def hasExtraZero (t : Text) : Bool :=
  let digits := dropSign t
  1 < digits.length && digits.head? == some '0' && digits.all Char.isDigit

/-- Whether a character is a digit in a base. -/
def isDigitIn (base : Nat) (c : Char) : Bool :=
  (c.isDigit || ('a' ≤ c && c ≤ 'f') || ('A' ≤ c && c ≤ 'F')) && hexDigitValue c < base

/-- The value of a run of digits in a base. -/
def digitsIn? (base : Nat) (t : Text) : Option Nat :=
  if !t.isEmpty && t.all (isDigitIn base) then
    some (t.foldl (fun n c => base * n + hexDigitValue c) 0)
  else none

/-- The value of digits in the base that their mark tells. -/
def marked? (t : Text) : Option Nat :=
  ((dropLeading? "0x" t).bind (digitsIn? 16)).or
    (((dropLeading? "0o" t).bind (digitsIn? 8)).or ((dropLeading? "0b" t).bind (digitsIn? 2)))

/-- The value of a number without a sign; `whole` is the text with its sign. -/
def magnitude? (whole t : Text) : Option Nat :=
  (marked? t).or (if hasExtraZero whole then none else digitsIn? 10 t)

/-- The value of a text that is written like an integer. -/
def integer? (t : Text) : Option Int :=
  match dropLeading? "-" t with
  | some size => (magnitude? t size).map fun n => -(n : Int)
  | none => (magnitude? t ((dropLeading? "+" t).getD t)).map Int.ofNat

/-- The digits of a decimal number: before and behind the point, of which one part may be
missing. -/
def decimalDigits : Reader Char (Text × Text) := do
  let whole ← Reader.takeWhile Char.isDigit
  let point ← Reader.optional? (Reader.only '.')
  let fraction ← if point.isSome then Reader.takeWhile Char.isDigit else pure []
  Reader.require (!(whole.isEmpty && fraction.isEmpty))
  return (whole, fraction)

/-- The number behind the mark of an exponent. -/
def exponent : Reader Char Int := do
  let _ ← Reader.next fun c => c == 'e' || c == 'E'
  let sign ← Reader.optional? (Reader.next fun c => c == '-' || c == '+')
  let size := digitsValue (← Reader.takeWhile1 Char.isDigit)
  return if sign = some '-' then -(size : Int) else size

/-- A decimal number, with a sign perhaps. -/
def decimal : Reader Char (Bool × Binary64) := do
  let sign ← Reader.optional? (Reader.next fun c => c == '-' || c == '+')
  let (whole, fraction) ← decimalDigits
  let power ← Reader.optional? exponent
  return (sign = some '-',
    Binary64.ofDecimal (digitsValue (whole ++ fraction)) (power.getD 0 - fraction.length))

/-- The words for infinity. -/
def infinityWords : List Text := [".inf", ".Inf", ".INF"]

/-- The words for a value that is no number. -/
def notANumberWords : List Text := [".nan", ".NaN", ".NAN"]

/-- The value of a text that is written like a floating point number. -/
def float? (t : Text) : Option Binary64 :=
  if infinityWords.contains ((dropLeading? "+" t).getD t) then some Binary64.infinity
  else if infinityWords.any fun word => t = '-' :: word then some (Binary64.infinity.withSign true)
  else if notANumberWords.contains t then some Binary64.notANumber
  else
    (Reader.run? decimal t).bind fun (negative, x) =>
      if x = Binary64.infinity then none else some (x.withSign negative)

/-! ### Scalars -/

/-- What a scalar is: a value, nothing, or a number that no value has room for. -/
inductive Resolution where
  | value (value : Value)
  | missing
  | outOfRange
deriving Repr, Inhabited

/-- The value of an integer.  Up to 128 bits one that does not fit is refused; beyond, a number is
no integer at all. -/
def ofInteger? (n : Int) : Option Resolution :=
  match Value.integer? n with
  | some value => some (.value value)
  | none =>
    if fitsSigned 128 n || (0 ≤ n && n < Int.ofNat (twoTo 128)) then some .outOfRange else none

/-- What a plain scalar without a tag is. -/
def untagged (t : Text) : Resolution :=
  if t.isEmpty || isNull t then .missing
  else
    match boolean? t with
    | some b => .value (.boolean b)
    | none =>
      match (integer? t).bind ofInteger? with
      | some resolution => resolution
      | none =>
        match if hasExtraZero t then none else float? t with
        | some x => .value (.float x)
        | none => .value (.text t)

/-- What a scalar with a tag is.  A tag that says nothing leaves a text a text, but a plain scalar
with a marked one is what it is without it. -/
def tagged (name : TagName) (plain : Bool) (t : Text) : Resolution :=
  if name = TagName.core "bool" then
    match boolean? t with
    | some b => .value (.boolean b)
    | none => .outOfRange
  else if name = TagName.core "int" then
    match (integer? t).bind ofInteger? with
    | some resolution => resolution
    | none => .outOfRange
  else if name = TagName.core "float" then
    match float? t with
    | some x => .value (.float x)
    | none => .outOfRange
  else if name = TagName.core "null" then .missing
  else if name.isMarked && plain then untagged t
  else .value (.text t)

/-- The value of a scalar. -/
def scalarValue? (properties : Properties) (plain : Bool) (t : Text) : Option Value :=
  if properties.tag.any TagName.isLocal then none
  else
    match
      match properties.tag with
      | some name => tagged name plain t
      | none => if plain then untagged t else .value (.text t)
    with
    | .value value => some value
    | _ => none

/-! ### Nodes -/

/-- The nodes of a document, and how many aliases may still be followed. -/
structure Links where
  anchored : List Node
  budget : Nat
deriving Repr, Inhabited

/-- The state in which values are made: refusal, or a value and the aliases left to follow. -/
abbrev Making (α : Type) := StateT Links Option α

/-- The node that an alias stands for; of nodes with one number it is the last. -/
def follow (node : Node) : Making Node := fun links =>
  match node with
  | .aliasOf number =>
    if links.budget = 0 then none
    else
      (links.anchored.reverse.find? fun other => other.anchor? = some number).map fun target =>
        (target, { links with budget := links.budget - 1 })
  | node => some (node, links)

/-- A scalar as the text of a key, whatever is said of it. -/
def keyText (node : Node) : Making Text := do
  match ← follow node with
  | .scalar _ _ text => pure text
  | _ => failure

/-- A scalar whose value is a text, as the text of a key. -/
def firstKeyText (node : Node) : Making Text := do
  match ← follow node with
  | .scalar properties plain text =>
    match (scalarValue? properties plain text).bind Value.text? with
    | some text => pure text
    | none => failure
  | _ => failure

/-- The entries of a mapping, in the order in which they are written.  The value of the first one
may depend on its key. -/
def entries (firstKey : Node → Making Text) (firstValue : Text → Node → Making Value)
    (value : Node → Making Value) : List (Node × Node) → Making (List (Text × Value))
  | [] => pure []
  | (key, node) :: rest => do
    let key ← firstKey key
    let value' ← firstValue key node
    let others ← rest.mapM fun (key, node) => do
      let key ← keyText key
      return (key, ← value node)
    return (key, value') :: others

/-- The value of the first entry of a nested mapping.  Under the key for moments it is a text,
whatever is said of it. -/
def firstEntryValue (value : Node → Making Value) (key : Text) (node : Node) : Making Value :=
  if key = momentKey then Value.text <$> keyText node else value node

/-- The value of a node nested in at most `depth` more collections. -/
def value : Nat → Node → Making Value
  | depth, node => do
    match ← follow node, depth with
    | .scalar properties plain text, _ =>
      match scalarValue? properties plain text with
      | some value => pure value
      | none => failure
    | .sequence properties items, depth + 1 =>
      if properties.tag.any TagName.isLocal then failure
      else return .list (← items.mapM (value depth))
    | .mapping properties nodes, depth + 1 =>
      if properties.tag.any TagName.isLocal then failure
      else
        let inner := value depth
        match nested? (← entries firstKeyText (firstEntryValue inner) inner nodes) with
        | some value => pure value
        | none => failure
    | _, _ => failure

/-- The number of aliases that may be followed for each event of a document. -/
def aliasesPerEvent : Nat := 100

/-- The number of events of some nodes: two for a collection, one for every other node. -/
def eventCount (nodes : List Node) : Nat :=
  nodes.foldl (fun count node =>
    match node with
    | .sequence _ _ => count + 2
    | .mapping _ _ => count + 2
    | _ => count + 1) 0

/-- The table of the root of a document.  Of entries with one key the last wins. -/
def table? (root : Node) : Option Table :=
  match root with
  | .mapping _ nodes =>
    let links : Links := ⟨root.nodes, aliasesPerEvent * eventCount root.nodes⟩
    let inner := value (maxDepth - 1)
    ((entries keyText (fun _ => inner) inner nodes).run links).map fun (written, _) =>
      Entries.ofList written
  | .scalar _ true [] => some []
  | _ => none

/-- The table that a text is read as; a text without a document is an empty one. -/
def parse? (content : Text) : Option Table :=
  if Text.isBlank content then some []
  else
    (Token.ofText? content).bind fun tokens =>
      (Node.ofTokens? tokens).bind fun root =>
        match root with
        | some root => table? root
        | none => some []

end Yaml

end Config

end GitHooks
