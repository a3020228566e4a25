/-
**The order of a sorted body.**

A body is sorted by the keys of its lines, and lines with the same key keep their order.  That a
sort is stable is said key by key: the lines with that key are the same list before and after.
Two lists in the order of their keys that have, for every key, the same lines with that key are
equal, since both begin with the first line of the least key.  So there is one stable sort of a
body, and `Section.sortBody` computes it.

Main definitions:

* `Section.IsStableSort` — a permutation of a body that is sorted and stable.

Main results:

* `Section.eq_of_ordered` — an ordered body is told by the lines of each key;
* `Section.isStableSort_sortBody`, `Section.isStableSort_iff` — sorting is the stable sort.
-/

import GitHooks.Section
import Mathlib.Data.List.Pairwise

set_option relaxedAutoImplicit false
set_option autoImplicit false

namespace GitHooks

/-! ### The order of texts -/

namespace Text

variable {t u v : Text}

theorem isOrdered_iff : isOrdered t u = true ↔ ¬ u < t := by simp [isOrdered]

theorem isOrdered_refl (t : Text) : isOrdered t t = true := isOrdered_iff.2 (List.lt_irrefl t)

theorem isOrdered_trans (htu : isOrdered t u = true) (huv : isOrdered u v = true) :
    isOrdered t v = true := by
  rw [isOrdered_iff] at htu huv ⊢
  exact List.le_trans htu huv

theorem isOrdered_total (t u : Text) : isOrdered t u = true ∨ isOrdered u t = true := by
  rw [isOrdered_iff, isOrdered_iff]
  exact List.le_total t u

theorem isOrdered_antisymm (htu : isOrdered t u = true) (hut : isOrdered u t = true) : t = u := by
  rw [isOrdered_iff] at htu hut
  exact List.le_antisymm htu hut

end Text

namespace Section

open Text

variable {marker : Text} {body sorted other : List Text}

/-! ### Lines in the order of their keys -/

/-- The order of two lines, by their keys. -/
def lineOrder (marker a b : Text) : Bool := isOrdered (key marker a) (key marker b)

theorem lineOrder_of_key_eq {a b : Text} (h : key marker a = key marker b) :
    lineOrder marker a b = true := by
  rw [lineOrder, h]
  exact isOrdered_refl _

theorem lineOrder_trans (marker a b c : Text) (hab : lineOrder marker a b = true)
    (hbc : lineOrder marker b c = true) : lineOrder marker a c = true := isOrdered_trans hab hbc

theorem lineOrder_total (marker a b : Text) :
    (lineOrder marker a b || lineOrder marker b a) = true := by
  rw [Bool.or_eq_true]
  exact isOrdered_total _ _

/-- The lines with a key. -/
def linesWithKey (marker k : Text) (body : List Text) : List Text :=
  body.filter fun line => key marker line = k

theorem key_of_mem_linesWithKey {k line : Text} (h : line ∈ linesWithKey marker k body) :
    key marker line = k := by
  simpa using (List.mem_filter.1 h).2

/-- Bodies with the same lines for every key have the same lines. -/
theorem mem_iff_of_linesWithKey (hsame : ∀ k, linesWithKey marker k sorted
    = linesWithKey marker k other) (line : Text) : line ∈ sorted ↔ line ∈ other := by
  have hmem : ∀ body : List Text, line ∈ linesWithKey marker (key marker line) body ↔ line ∈ body :=
    fun body => by simp [linesWithKey]
  rw [← hmem sorted, hsame, hmem]

/-- The first line of an ordered body has the least key. -/
theorem lineOrder_of_mem_cons {line first : Text} {rest : List Text}
    (hrest : ∀ line ∈ rest, lineOrder marker first line = true) (hline : line ∈ first :: rest) :
    lineOrder marker first line = true := by
  rcases List.mem_cons.1 hline with rfl | hline
  · exact lineOrder_of_key_eq rfl
  · exact hrest line hline

/-- **An ordered body is told by the lines of each key.** -/
theorem eq_of_ordered (hsorted : sorted.Pairwise fun a b => lineOrder marker a b = true)
    (hother : other.Pairwise fun a b => lineOrder marker a b = true)
    (hsame : ∀ k, linesWithKey marker k sorted = linesWithKey marker k other) : sorted = other := by
  induction sorted generalizing other with
  | nil =>
      cases other with
      | nil => rfl
      | cons line other =>
          exact absurd ((mem_iff_of_linesWithKey hsame line).2 List.mem_cons_self) (by simp)
  | cons line sorted ih =>
      cases other with
      | nil => exact absurd ((mem_iff_of_linesWithKey hsame line).1 List.mem_cons_self) (by simp)
      | cons line' other =>
          obtain ⟨hfirst, hrest⟩ := List.pairwise_cons.1 hsorted
          obtain ⟨hfirst', hrest'⟩ := List.pairwise_cons.1 hother
          have hle := lineOrder_of_mem_cons hfirst
            ((mem_iff_of_linesWithKey hsame line').2 List.mem_cons_self)
          have hge := lineOrder_of_mem_cons hfirst'
            ((mem_iff_of_linesWithKey hsame line).1 List.mem_cons_self)
          -- both heads have the least key, so each is the first line with that key
          have hkey : key marker line = key marker line' := isOrdered_antisymm hle hge
          have heq : line = line' := by
            have hlines := hsame (key marker line)
            simp only [linesWithKey, hkey, List.filter_cons, decide_true, if_true] at hlines
            exact List.head_eq_of_cons_eq hlines
          subst heq
          have hsame' : ∀ k, linesWithKey marker k sorted = linesWithKey marker k other := by
            intro k
            have hlines := hsame k
            by_cases hk : key marker line = k
            · simpa [linesWithKey, hk] using hlines
            · simpa [linesWithKey, hk] using hlines
          rw [ih hrest hrest' hsame']

/-! ### Stable sorts -/

/-- A body in the order of its keys, where lines with the same key keep their order. -/
structure IsStableSort (marker : Text) (body sorted : List Text) : Prop where
  perm : sorted.Perm body
  ordered : sorted.Pairwise fun a b => isOrdered (key marker a) (key marker b) = true
  /-- The lines with a key are in the order they had. -/
  stable : ∀ k, (sorted.filter fun line => key marker line = k)
    = body.filter fun line => key marker line = k

theorem sortBody_perm (marker : Text) (body : List Text) : (sortBody marker body).Perm body :=
  List.mergeSort_perm _ _

theorem mem_sortBody {line : Text} : line ∈ sortBody marker body ↔ line ∈ body :=
  (sortBody_perm marker body).mem_iff

theorem sortBody_ordered (marker : Text) (body : List Text) :
    (sortBody marker body).Pairwise fun a b => lineOrder marker a b = true :=
  List.pairwise_mergeSort (lineOrder_trans marker) (lineOrder_total marker) body

/-- Sorting keeps the lines with a key in their order. -/
theorem linesWithKey_sortBody (marker : Text) (body : List Text) (k : Text) :
    linesWithKey marker k (sortBody marker body) = linesWithKey marker k body := by
  have hordered : (linesWithKey marker k body).Pairwise fun a b => lineOrder marker a b = true := by
    refine List.pairwise_of_forall_mem_list ?_
    intro a ha b hb
    exact lineOrder_of_key_eq
      ((key_of_mem_linesWithKey ha).trans (key_of_mem_linesWithKey hb).symm)
  -- the lines with the key are ordered, so sorting keeps them as a sublist
  have hsub : (linesWithKey marker k body).Sublist (sortBody marker body) :=
    List.sublist_mergeSort (lineOrder_trans marker) (lineOrder_total marker) hordered
      List.filter_sublist
  have hkept : (linesWithKey marker k body).Sublist
      (linesWithKey marker k (sortBody marker body)) := by
    have hfilter := hsub.filter fun line => key marker line = k
    simpa only [linesWithKey, List.filter_filter, Bool.and_self] using hfilter
  have hlength : (linesWithKey marker k body).length
      = (linesWithKey marker k (sortBody marker body)).length :=
    ((sortBody_perm marker body).filter _).length_eq.symm
  exact (hkept.eq_of_length hlength).symm

theorem isStableSort_sortBody (marker : Text) (body : List Text) :
    IsStableSort marker body (sortBody marker body) where
  perm := sortBody_perm marker body
  ordered := sortBody_ordered marker body
  stable := linesWithKey_sortBody marker body

/-- **There is one stable sort of a body**, and sorting computes it. -/
theorem isStableSort_iff : IsStableSort marker body sorted ↔ sorted = sortBody marker body := by
  constructor
  · intro h
    refine eq_of_ordered h.ordered (sortBody_ordered marker body) ?_
    intro k
    exact (h.stable k).trans (linesWithKey_sortBody marker body k).symm
  · rintro rfl
    exact isStableSort_sortBody marker body

end Section

end GitHooks
