/-
**Layers put together in any way.**

Several sources are put on top of each other two at a time, and where the brackets stand does not
matter: only the order of the sources does.  A field of the result is the first that a source sets,
and the block of a language is put together in the same way, field by field; a source that sets
nothing, or that is given twice in a row, adds nothing.  Two maps of blocks as one is a fold that
alters the lower map.  The same comes out if the blocks of the upper map are moved down one by one,
where the block that is there already is taken out first and what comes of both is put back.

Main definitions:

* `Entries.moveInto` — one entry moved into a map;
* `Settings.Bracketing` — some layers with brackets around them.

Main results:

* `Entries.foldl_moveInto` — entries moved one by one are two maps as one;
* `Entries.unionWith_assoc`, `Entries.unionWith_self` — three maps as one, and one map twice;
* `Settings.Bracketing.first_of_merged` — the first source that sets a field wins;
* `Settings.Layer.or_in_any_bracketing` — layers on top of each other do not depend on the
  brackets.
-/

import GitHooks.Proofs.Entries
import GitHooks.Proofs.Settings.Precedence

set_option relaxedAutoImplicit false
set_option autoImplicit false

namespace GitHooks

/-! ### Maps as one -/

namespace Entries

variable {α : Type} {combine : α → α → α} {upper middle lower entries : Entries α}

/-- The value of a key in two maps as one is told by its values in both, of which either may be
missing. -/
theorem get?_unionWith_eq_merge (hupper : Sorted upper) (hlower : Sorted lower)
    (combine : α → α → α) (key : Text) :
    get? key (unionWith combine upper lower)
      = (get? key upper).merge combine (get? key lower) := by
  rw [get?_unionWith hupper hlower]
  cases get? key upper with
  | none => exact Option.merge_none_left.symm
  | some value =>
      cases get? key lower with
      | none => rfl
      | some other => rfl

/-- **Three maps as one** are the same in both bracketings, where values are combined so. -/
theorem unionWith_assoc [Std.Associative combine] (hupper : Sorted upper)
    (hmiddle : Sorted middle) (hlower : Sorted lower) :
    unionWith combine (unionWith combine upper middle) lower
      = unionWith combine upper (unionWith combine middle lower) := by
  have hfirst : Sorted (unionWith combine upper middle) := sorted_unionWith hmiddle combine upper
  have hlast : Sorted (unionWith combine middle lower) := sorted_unionWith hlower combine middle
  refine eq_of_get?_eq (sorted_unionWith hlower _ _) (sorted_unionWith hlast _ _) fun key => ?_
  rw [get?_unionWith_eq_merge hfirst hlower, get?_unionWith_eq_merge hupper hmiddle,
    get?_unionWith_eq_merge hupper hlast, get?_unionWith_eq_merge hmiddle hlower]
  exact Std.Associative.assoc _ _ _

/-- **A map with itself** is the map, where a value combined with itself is the value. -/
theorem unionWith_self [Std.IdempotentOp combine] (h : Sorted entries) :
    unionWith combine entries entries = entries := by
  refine eq_of_get?_eq (sorted_unionWith h _ _) h fun key => ?_
  rw [get?_unionWith_eq_merge h h]
  exact Std.IdempotentOp.idempotent _

/-! ### One by one -/

/-- The entries without a key. -/
def erase (key : Text) (entries : Entries α) : Entries α := alter key (fun _ => none) entries

/-- One entry moved into a map: what its key has there is taken out, and what comes of both is put
in. -/
def moveInto (combine : α → α → α) (entries : Entries α) (moved : Text × α) : Entries α :=
  let value := match get? moved.1 entries with
    | some other => combine moved.2 other
    | none => moved.2
  insert moved.1 value (erase moved.1 entries)

theorem sorted_erase (h : Sorted entries) (key : Text) : Sorted (erase key entries) :=
  sorted_alter h key _

theorem sorted_moveInto (h : Sorted entries) (moved : Text × α) :
    Sorted (moveInto combine entries moved) := sorted_insert (sorted_erase h _) _ _

/-- An entry that is moved changes the value of its key, and no other. -/
theorem get?_moveInto (h : Sorted entries) (key : Text) (moved : Text × α) :
    get? key (moveInto combine entries moved)
      = if moved.1 = key then (some moved.2).merge combine (get? key entries)
        else get? key entries := by
  rw [moveInto, get?_insert (sorted_erase h _)]
  split
  · next hkey =>
    subst hkey
    cases get? moved.1 entries with
    | none => rfl
    | some other => rfl
  · next hkey => rw [erase, get?_alter h, if_neg hkey]

theorem sorted_foldl_moveInto (h : Sorted entries) (moved : List (Text × α)) :
    Sorted (moved.foldl (moveInto combine) entries) := by
  induction moved generalizing entries with
  | nil => exact h
  | cons head rest ih => exact ih (sorted_moveInto h head)

/-- Entries that are moved one by one change the values of their keys, each once. -/
theorem get?_foldl_moveInto (hupper : Sorted upper) (hlower : Sorted lower) (key : Text) :
    get? key (upper.foldl (moveInto combine) lower)
      = (get? key upper).merge combine (get? key lower) := by
  induction upper generalizing lower with
  | nil => exact Option.merge_none_left.symm
  | cons head rest ih =>
      obtain ⟨k, value⟩ := head
      obtain ⟨hhead, hrest⟩ := List.pairwise_cons.1 hupper
      rw [List.foldl_cons, ih hrest (sorted_moveInto hlower _), get?_moveInto hlower, get?_cons]
      split
      · next hkey =>
        -- the keys that are still to be moved come behind this one
        subst hkey
        have hnone : get? k rest = none := get?_eq_none_of_lt fun e he => hhead e he
        rw [hnone, Option.merge_none_left]
      · rfl

/-- **Entries moved one by one** into a map are the two maps as one. -/
theorem foldl_moveInto (hupper : Sorted upper) (hlower : Sorted lower) :
    upper.foldl (moveInto combine) lower = unionWith combine upper lower := by
  refine eq_of_get?_eq (sorted_foldl_moveInto hlower _) (sorted_unionWith hlower _ _) fun key => ?_
  rw [get?_foldl_moveInto hupper hlower, get?_unionWith_eq_merge hupper hlower]

end Entries

namespace Settings

/-! ### Blocks and layers -/

instance : Std.Associative Block.or where
  assoc a b c := by simp only [Block.or, Option.or_assoc]

instance : Std.IdempotentOp Block.or where
  idempotent a := by simp only [Block.or, Option.or_self]

namespace Layer

theorem or_assoc (a b c : Layer) : (a.or b).or c = a.or (b.or c) := by
  ext1
  · exact Option.or_assoc
  · exact Option.or_assoc
  · exact Entries.unionWith_assoc a.languages_sorted b.languages_sorted c.languages_sorted

theorem or_self (a : Layer) : a.or a = a := by
  ext1
  · exact Option.or_self
  · exact Option.or_self
  · exact Entries.unionWith_self a.languages_sorted

end Layer

/-! ### Brackets -/

/-- Some layers with brackets around them. -/
inductive Bracketing where
  | source (layer : Layer)
  | onTop (upper lower : Bracketing)

namespace Bracketing

/-- The layers, the highest first. -/
def sources : Bracketing → List Layer
  | source layer => [layer]
  | onTop upper lower => upper.sources ++ lower.sources

/-- The layers on top of each other, as the brackets tell. -/
def merged : Bracketing → Layer
  | source layer => layer
  | onTop upper lower => upper.merged.or lower.merged

/-- The brackets can be moved to the end. -/
theorem merged_eq_foldr (bracketing : Bracketing) :
    bracketing.merged = bracketing.sources.foldr Layer.or Layer.empty := by
  have hfoldr : ∀ (bracketing : Bracketing) (below : Layer),
      bracketing.merged.or below = bracketing.sources.foldr Layer.or below := by
    intro bracketing
    induction bracketing with
    | source layer => exact fun _ => rfl
    | onTop upper lower ihupper ihlower =>
        intro below
        rw [merged, sources, List.foldr_append, ← ihlower, ← ihupper, Layer.or_assoc]
  rw [← hfoldr, Layer.or_empty]

/-- **The first source that sets a field wins**, for every field that is found in the upper layer
first and then in the lower one. -/
theorem first_of_merged {α : Type} (field : Layer → Option α)
    (hfield : ∀ upper lower : Layer, field (upper.or lower) = (field upper).or (field lower))
    (bracketing : Bracketing) :
    field bracketing.merged = bracketing.sources.findSome? field := by
  induction bracketing with
  | source layer => rw [merged, sources, List.findSome?_singleton]
  | onTop upper lower ihupper ihlower =>
      rw [merged, sources, hfield, ihupper, ihlower, List.findSome?_append]

end Bracketing

/-- **Layers on top of each other do not depend on the brackets.**  Putting layers on top of each
other is associative, an empty layer adds nothing on either side, and neither does a layer below
itself.  The blocks of languages are those of the upper layer, moved one by one into the lower.
So the same sources in any bracketing give the same layer, and in it the first source that sets a
field wins. -/
theorem Layer.or_in_any_bracketing :
    (∀ a b c : Layer, (a.or b).or c = a.or (b.or c))
      ∧ (∀ a : Layer, a.or Layer.empty = a ∧ Layer.empty.or a = a ∧ a.or a = a)
      ∧ (∀ a b : Layer, (a.or b).languages
          = a.languages.foldl (Entries.moveInto Block.or) b.languages)
      ∧ ∀ bracketing other : Bracketing, bracketing.sources = other.sources →
          bracketing.merged = other.merged
            ∧ bracketing.merged.name = other.sources.findSome? Layer.name
            ∧ bracketing.merged.format = other.sources.findSome? Layer.format
            ∧ ∀ tag, bracketing.merged.formatOf? tag = other.sources.findSome? (·.formatOf? tag)
              ∧ bracketing.merged.docstringOf? tag
                = other.sources.findSome? (·.docstringOf? tag) := by
  refine ⟨Layer.or_assoc, fun a => ⟨a.or_empty, a.empty_or, a.or_self⟩, ?_, ?_⟩
  · intro a b
    exact (Entries.foldl_moveInto a.languages_sorted b.languages_sorted).symm
  · intro bracketing other hsources
    rw [← hsources]
    refine ⟨?_, bracketing.first_of_merged Layer.name fun _ _ => rfl,
      bracketing.first_of_merged Layer.format fun _ _ => rfl, fun tag => ⟨?_, ?_⟩⟩
    · rw [Bracketing.merged_eq_foldr, Bracketing.merged_eq_foldr, hsources]
    · exact bracketing.first_of_merged (·.formatOf? tag) fun upper lower =>
        Layer.formatOf?_or upper lower tag
    · exact bracketing.first_of_merged (·.docstringOf? tag) fun upper lower =>
        Layer.docstringOf?_or upper lower tag

/-- A project file with a block that sets nothing, and one for another language. -/
def blockOfNothing : Layer :=
  (Layer.empty.setBlock "python" Block.empty).setBlock "c" ⟨none, some false⟩

/-- Of three sources with a block for the same language, the first sets where notices go, the second
nothing, and the third the format. -/
theorem Layer.or_in_any_bracketing_python :
    let fromTop : Bracketing := .onTop (.onTop (.source blockAbove) (.source blockOfNothing))
      (.source everythingSet)
    let fromBottom : Bracketing := .onTop (.source blockAbove)
      (.onTop (.source blockOfNothing) (.source everythingSet))
    fromTop.sources = fromBottom.sources
      ∧ fromTop.merged = fromBottom.merged
      ∧ fromTop.merged.name = some "Ada".toList
      ∧ fromTop.merged.formatOf? "python" = some "(c) {year} {name}".toList
      ∧ fromTop.merged.docstringOf? "python" = some true := by
  intro fromTop fromBottom
  obtain ⟨-, -, -, hbrackets⟩ := Layer.or_in_any_bracketing
  obtain ⟨hmerged, hname, -, htag⟩ := hbrackets fromTop fromBottom rfl
  obtain ⟨hformat, hdocstring⟩ := htag "python"
  refine ⟨rfl, hmerged, ?_, ?_, ?_⟩
  · rw [hname]
    rfl
  · rw [hformat]
    rfl
  · rw [hdocstring]
    rfl

end Settings

end GitHooks
