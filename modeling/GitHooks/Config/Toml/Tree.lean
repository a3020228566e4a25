/-
**The tree of a TOML document.**

A document is a list of statements that open tables and set keys.  A table that is opened by its
header, one that only a longer header implies and one that a dotted key makes are of different
kinds: the second may still be opened once, the third may be added to by other dotted keys, and
apart from that no table is opened twice and no key is set twice.

Main definitions:

* `Toml.Node`, `Toml.TableKind` — the tree, and the kinds of tables in it;
* `Toml.assign` — a key set in a table;
* `Toml.openTable`, `Toml.openElement` — a table opened by a header, alone or as one more of a list;
* `Toml.valueOf?`, `Toml.tableValue?` — the values that a tree stands for;
* `Toml.Statement`, `Toml.build` — the table that statements describe.
-/

import GitHooks.Config.Value

set_option relaxedAutoImplicit false
set_option autoImplicit false

namespace GitHooks

namespace Config

namespace Toml

/-! ### Trees -/

/-- How a table came to be. -/
inductive TableKind where
  /-- By a header of its own. -/
  | opened
  /-- As a part of a longer header. -/
  | implied
  /-- By a dotted key. -/
  | dotted
deriving DecidableEq, Repr, Inhabited

/-- A value, a list or a table that is written out in one place, a table that statements add to, or
a list of such tables. -/
inductive Node where
  | value (value : Value)
  | list (items : List Node)
  | inline (nodes : List (Text × Node))
  | table (kind : TableKind) (nodes : List (Text × Node))
  | tables (items : List (List (Text × Node)))
deriving Repr, Inhabited

/-- The keys of a table, in the order in which they are written. -/
abbrev Nodes := List (Text × Node)

/-- The keys of a table with one of them changed, where the change is allowed. -/
def change (key : Text) (next? : Option Node → Option Node) : Nodes → Option Nodes
  | [] => (next? none).map fun node => [(key, node)]
  | (k, node) :: rest =>
    if k = key then (next? (some node)).map fun node => (k, node) :: rest
    else (change key next? rest).map fun rest => (k, node) :: rest

/-- A change inside a node on the way to a table.  A dotted key makes the tables it needs and does
not enter opened ones; a header enters every table, and the last of a list. -/
def inside (dotted : Bool) (next? : Nodes → Option Nodes) : Option Node → Option Node
  | none => (next? []).map (Node.table (if dotted then .dotted else .implied))
  | some (.table kind nodes) =>
    if dotted && kind == .opened then none else (next? nodes).map (Node.table kind)
  | some (.tables items) =>
    items.getLast?.bind fun last =>
      (next? last).map fun nodes => Node.tables (items.dropLast ++ [nodes])
  | some _ => none

/-- A change in the table at a path. -/
def descend (dotted : Bool) (next? : Nodes → Option Nodes) : List Text → Nodes → Option Nodes
  | [] => next?
  | key :: path => change key (inside dotted (descend dotted next? path))

/-! ### Keys and headers -/

/-- A key set that has not been set. -/
def setNew (key : Text) (node : Node) : Nodes → Option Nodes :=
  change key fun
    | none => some node
    | some _ => none

/-- A key set in a table that a dotted key made or makes. -/
def setDotted (key : Text) (node : Node) : Option Node → Option Node
  | none => some (.table .dotted [(key, node)])
  | some (.table .dotted nodes) => (setNew key node nodes).map (Node.table .dotted)
  | some _ => none

/-- A key set at a path of keys. -/
def assign (key : Text) (node : Node) : List Text → Nodes → Option Nodes
  | [] => setNew key node
  | [table] => change table (setDotted key node)
  | table :: next :: path => change table (inside true (assign key node (next :: path)))

/-- A table opened in the table around it, where it comes last. -/
def openLast (key : Text) (nodes : Nodes) : Option Nodes :=
  let others := nodes.filter fun entry => entry.1 != key
  match nodes.find? fun entry => entry.1 == key with
  | none => some (others ++ [(key, .table .opened [])])
  | some (_, .table .implied inner) => some (others ++ [(key, .table .opened inner)])
  | some _ => none

/-- A table opened at a path. -/
def openTable (path : List Text) (key : Text) : Nodes → Option Nodes :=
  descend false (openLast key) path

/-- One more table of the list at a path. -/
def openElement (path : List Text) (key : Text) : Nodes → Option Nodes :=
  descend false
    (change key fun
      | none => some (.tables [[]])
      | some (.tables items) => some (.tables (items ++ [[]]))
      | some _ => none)
    path

/-! ### Values -/

/-- The moment that a node gives. -/
def momentOf? : Node → Option Value
  | .value value => value.text?.bind moment?
  | _ => none

mutual

/-- The value that a node stands for. -/
def valueOf? : Node → Option Value
  | .value value => some value
  | .list items => (itemValues? items).map Value.list
  | .inline nodes => tableValue? nodes
  | .table _ nodes => tableValue? nodes
  | .tables items => (tableValues? items).map Value.list

/-- The value that a table stands for.  Where its first key is the one for moments, it is a moment
whatever its other keys are. -/
def tableValue? : List (Text × Node) → Option Value
  | [] => some (.table [])
  | (key, node) :: rest =>
    if key = momentKey then momentOf? node
    else
      (valueOf? node).bind fun value =>
        (values? rest).map fun others => .table (Entries.ofList ((key, value) :: others))

/-- The values that the keys of a table stand for. -/
def values? : List (Text × Node) → Option (List (Text × Value))
  | [] => some []
  | (key, node) :: rest =>
    (valueOf? node).bind fun value => (values? rest).map fun others => (key, value) :: others

/-- The values that the items of a list stand for. -/
def itemValues? : List Node → Option (List Value)
  | [] => some []
  | node :: rest =>
    (valueOf? node).bind fun value => (itemValues? rest).map fun others => value :: others

/-- The values that the tables of a list stand for. -/
def tableValues? : List (List (Text × Node)) → Option (List Value)
  | [] => some []
  | nodes :: rest =>
    (tableValue? nodes).bind fun value => (tableValues? rest).map fun others => value :: others

end

/-! ### Documents -/

/-- A statement of a document. -/
inductive Statement where
  | header (path : List Text) (key : Text)
  | element (path : List Text) (key : Text)
  | assignment (path : List Text) (key : Text) (node : Node)
deriving Repr, Inhabited

/-- The tree built so far and the path of the table that is open. -/
structure Document where
  root : Nodes
  here : List Text
deriving Repr, Inhabited

/-- What one more statement does to a document. -/
def Document.step (document : Document) : Statement → Option Document
  | .header path key => (openTable path key document.root).map fun root => ⟨root, path ++ [key]⟩
  | .element path key => (openElement path key document.root).map fun root => ⟨root, path ++ [key]⟩
  | .assignment path key node =>
    (descend false (assign key node path) document.here document.root).map fun root =>
      ⟨root, document.here⟩

/-- The table that statements describe. -/
def build (statements : List Statement) : Option Table :=
  (statements.foldlM Document.step ⟨[], []⟩).bind fun document =>
    (values? document.root).map Entries.ofList

/-- An inline table, from the keys it sets. -/
def inlineTable (assignments : List (List Text × Text × Node)) : Option Node :=
  (assignments.foldlM (fun nodes (path, key, node) => assign key node path nodes) []).map
    Node.inline

end Toml

end Config

end GitHooks
