/-
**Sorting without repeats.**

Lines that repeat a key are dropped by comparing each line of a sorted body with the line kept last.
Sorting brings the lines with a key together and keeps their order, so a sorted body is made of the
lines with the least key, then those with the next one, and so on.  In such a row of groups the line
kept last is the first of the group that is being read: the first line of every group is kept, and
each of the others is compared with it.

Keys shared by sections are found in one ascending list of the keys of all bodies.  Within a body no
key is left twice, so a key stands in that list as often as there are sections that have it.

Main definitions:

* `Section.distinctKeys` — the keys of a body, each once and in ascending order;
* `Section.firstLines` — the first line of every key;
* `Section.repeatRemarks` — the remarks on a group of lines with one key;
* `Section.distinct` — a section with the first line of every key in its body.

Main results:

* `Section.sortBody_eq_flatMap` — a sorted body is its groups, in the order of the keys;
* `Section.dropRepeats_sortBody` — what is kept of a sorted body, and what is remarked on;
* `Section.sharedKeys_eq` — the keys found in several sections;
* `Section.sortSections_unique` — a file sorted without repeats.
-/

import GitHooks.Proofs.Section.Sorted
import Mathlib.Data.List.Dedup
import Mathlib.Data.List.Sort

set_option relaxedAutoImplicit false
set_option autoImplicit false

namespace GitHooks

/-! ### Texts in order -/

namespace Text

variable {items : List Text}

/-- Texts in the order of their code points that differ are in strict order. -/
theorem lt_of_isOrdered {t u : Text} (h : isOrdered t u = true) (hne : t ≠ u) : t < u := by
  refine Classical.byContradiction fun hlt => hne ?_
  exact isOrdered_antisymm h (isOrdered_iff.2 hlt)

theorem pairwise_lt (hordered : items.Pairwise fun t u => isOrdered t u = true)
    (hnodup : items.Nodup) : items.Pairwise (· < ·) :=
  (hordered.and hnodup).imp fun h => lt_of_isOrdered h.1 h.2

theorem mergeSort_pairwise (items : List Text) :
    (items.mergeSort isOrdered).Pairwise fun t u => isOrdered t u = true := by
  refine List.pairwise_mergeSort ?_ ?_ items
  · intro t u v
    exact isOrdered_trans
  · intro t u
    exact Bool.or_eq_true_iff.2 (isOrdered_total t u)

end Text

namespace Section

open Text

variable {marker kept k : Text} {body same rest items keys : List Text}

/-! ### Keys in ascending order -/

/-- The keys of a body, each once and in ascending order. -/
def distinctKeys (marker : Text) (body : List Text) : List Text :=
  (body.map (key marker)).dedup.mergeSort isOrdered

theorem mem_distinctKeys : k ∈ distinctKeys marker body ↔ ∃ line ∈ body, key marker line = k := by
  rw [distinctKeys, List.mem_mergeSort, List.mem_dedup, List.mem_map]

theorem nodup_distinctKeys (marker : Text) (body : List Text) :
    (distinctKeys marker body).Nodup :=
  (List.mergeSort_perm _ _).nodup_iff.2 (List.nodup_dedup _)

theorem distinctKeys_pairwise (marker : Text) (body : List Text) :
    (distinctKeys marker body).Pairwise (· < ·) :=
  pairwise_lt (mergeSort_pairwise _) (nodup_distinctKeys marker body)

/-! ### Groups of a sorted body -/

theorem mem_linesWithKey {line : Text} :
    line ∈ linesWithKey marker k body ↔ line ∈ body ∧ key marker line = k := by
  simp [linesWithKey]

theorem linesWithKey_linesWithKey (k' : Text) :
    linesWithKey marker k (linesWithKey marker k' body)
      = if k' = k then linesWithKey marker k body else [] := by
  split
  · next h =>
    subst h
    rw [linesWithKey, linesWithKey, List.filter_filter]
    simp
  · next h =>
    rw [linesWithKey, List.filter_eq_nil_iff]
    intro line hline
    simp [key_of_mem_linesWithKey hline, h]

/-- Of the groups of some keys, only that of a key has lines with the key. -/
theorem linesWithKey_flatMap (hnodup : keys.Nodup) (hmem : k ∈ keys) :
    linesWithKey marker k (keys.flatMap fun k' => linesWithKey marker k' body)
      = linesWithKey marker k body := by
  have hfilter : linesWithKey marker k (keys.flatMap fun k' => linesWithKey marker k' body)
      = keys.flatMap fun k' => linesWithKey marker k (linesWithKey marker k' body) :=
    List.filter_flatMap
  rw [hfilter]
  obtain ⟨front, back, rfl⟩ := List.append_of_mem hmem
  obtain ⟨hfront, hback⟩ : k ∉ front ∧ k ∉ back := by
    rw [List.nodup_middle, List.nodup_cons, List.mem_append, not_or] at hnodup
    exact hnodup.1
  have hother : ∀ others : List Text, k ∉ others →
      (others.flatMap fun k' => linesWithKey marker k (linesWithKey marker k' body)) = [] := by
    intro others hk
    rw [List.flatMap_eq_nil_iff]
    intro k' hk'
    have hne : k' ≠ k := fun h => hk (h ▸ hk')
    rw [linesWithKey_linesWithKey, if_neg hne]
  rw [List.flatMap_append, List.flatMap_cons, hother front hfront, hother back hback,
    linesWithKey_linesWithKey, if_pos rfl, List.nil_append, List.append_nil]

/-- **A sorted body is its groups**: the lines with the least key in their order, then those with
the next one, and so on. -/
theorem sortBody_eq_flatMap (marker : Text) (body : List Text) :
    sortBody marker body
      = (distinctKeys marker body).flatMap fun k => linesWithKey marker k body := by
  refine (eq_of_ordered ?_ (sortBody_ordered marker body) ?_).symm
  · rw [List.pairwise_flatMap]
    constructor
    · intro k _
      refine List.pairwise_of_forall_mem_list fun a ha b hb => lineOrder_of_key_eq ?_
      rw [key_of_mem_linesWithKey ha, key_of_mem_linesWithKey hb]
    · refine (mergeSort_pairwise _).imp fun {k k'} hkk' a ha b hb => ?_
      rw [lineOrder, key_of_mem_linesWithKey ha, key_of_mem_linesWithKey hb]
      exact hkk'
  · intro k
    rw [linesWithKey_sortBody]
    by_cases hk : k ∈ distinctKeys marker body
    · exact linesWithKey_flatMap (nodup_distinctKeys marker body) hk
    · -- no line has the key
      have hnone : linesWithKey marker k body = [] := by
        refine List.eq_nil_iff_forall_not_mem.2 fun line hline => hk ?_
        exact mem_distinctKeys.2 ⟨line, mem_linesWithKey.1 hline⟩
      rw [hnone, linesWithKey, List.filter_eq_nil_iff]
      intro line hline
      obtain ⟨k', hk', hline⟩ := List.mem_flatMap.1 hline
      have hne : k' ≠ k := fun h => hk (h ▸ hk')
      simp [key_of_mem_linesWithKey hline, hne]

/-! ### Dropping repeats -/

/-- The remarks on a group of lines with one key: one for every line behind the first that is
written differently. -/
def repeatRemarks : List Text → List SortRemark
  | [] => []
  | kept :: omitted =>
    (omitted.filter fun line => trim line ≠ trim kept).map fun line => .dropped line kept

/-- The first line of every key, in the order of the keys. -/
def firstLines (marker : Text) (body : List Text) : List Text :=
  (distinctKeys marker body).filterMap fun k => (linesWithKey marker k body).head?

/-- Lines with the key of the line kept last are dropped. -/
theorem dropRepeatsOf_append (hsame : ∀ line ∈ same, key marker line = key marker kept)
    (rest : List Text) :
    dropRepeatsOf marker kept (same ++ rest)
      = ((dropRepeatsOf marker kept rest).1,
          repeatRemarks (kept :: same) ++ (dropRepeatsOf marker kept rest).2) := by
  induction same with
  | nil => rfl
  | cons line same ih =>
      obtain ⟨hline, hsame⟩ := List.forall_mem_cons.1 hsame
      rw [List.cons_append, dropRepeatsOf, if_pos hline.symm, ih hsame, repeatRemarks,
        repeatRemarks, List.filter_cons]
      by_cases htrim : trim line = trim kept
      · simp [htrim]
      · simp [htrim, Ne.symm htrim]

/-- Where another key begins, the line kept last is forgotten. -/
theorem dropRepeatsOf_of_head (h : ∀ line ∈ rest.head?, key marker kept ≠ key marker line) :
    dropRepeatsOf marker kept rest = dropRepeats marker rest := by
  cases rest with
  | nil => rfl
  | cons line rest =>
      rw [dropRepeatsOf, if_neg (h line rfl)]
      rfl

/-- **A row of groups without repeats**: the first line of every group is kept. -/
theorem dropRepeats_flatMap (hnodup : keys.Nodup) :
    dropRepeats marker (keys.flatMap fun k => linesWithKey marker k body)
      = (keys.filterMap fun k => (linesWithKey marker k body).head?,
          keys.flatMap fun k => repeatRemarks (linesWithKey marker k body)) := by
  induction keys with
  | nil => rfl
  | cons k keys ih =>
      obtain ⟨hk, hkeys⟩ := List.nodup_cons.1 hnodup
      rw [List.flatMap_cons, List.flatMap_cons, List.filterMap_cons]
      cases hgroup : linesWithKey marker k body with
      | nil => exact ih hkeys
      | cons kept same =>
          have hkey : ∀ line ∈ kept :: same, key marker line = k := fun line hline =>
            key_of_mem_linesWithKey (hgroup ▸ hline)
          obtain ⟨hkept, hsame⟩ := List.forall_mem_cons.1 hkey
          have hhead : ∀ line ∈ (keys.flatMap fun k => linesWithKey marker k body).head?,
              key marker kept ≠ key marker line := by
            intro line hline heq
            obtain ⟨k', hk', hline⟩ := List.mem_flatMap.1 (List.mem_of_head? hline)
            rw [hkept, key_of_mem_linesWithKey hline] at heq
            exact hk (heq ▸ hk')
          have hdrop := dropRepeatsOf_append
            (fun line hline => (hsame line hline).trans hkept.symm)
            (keys.flatMap fun k => linesWithKey marker k body)
          rw [dropRepeatsOf_of_head hhead, ih hkeys] at hdrop
          rw [List.cons_append, dropRepeats, hdrop]
          rfl

/-- **What is kept of a sorted body** is the first line of every key, and every other line that is
written differently is remarked on. -/
theorem dropRepeats_sortBody (marker : Text) (body : List Text) :
    dropRepeats marker (sortBody marker body)
      = (firstLines marker body, (distinctKeys marker body).flatMap fun k =>
          repeatRemarks (linesWithKey marker k body)) := by
  rw [sortBody_eq_flatMap]
  exact dropRepeats_flatMap (nodup_distinctKeys marker body)

/-- The lines kept have the keys of the body, each once and in ascending order. -/
theorem map_key_firstLines (marker : Text) (body : List Text) :
    (firstLines marker body).map (key marker) = distinctKeys marker body := by
  have hfirst : ∀ k ∈ distinctKeys marker body,
      ((linesWithKey marker k body).head?).map (key marker) = some k := by
    intro k hk
    obtain ⟨line, hline⟩ := mem_distinctKeys.1 hk
    cases hgroup : linesWithKey marker k body with
    | nil => exact absurd (mem_linesWithKey.2 hline) (hgroup ▸ List.not_mem_nil)
    | cons kept same =>
        have hkept : kept ∈ linesWithKey marker k body := hgroup ▸ List.mem_cons_self
        rw [List.head?_cons, Option.map_some, key_of_mem_linesWithKey hkept]
  rw [firstLines, List.map_filterMap, List.filterMap_congr hfirst, List.filterMap_some]

/-! ### Keys shared by sections -/

theorem repeated_sublist (items : List Text) : (repeated items).Sublist items := by
  induction items with
  | nil => exact List.Sublist.refl _
  | cons item rest ih =>
      rw [repeated]
      split
      · exact ih.cons_cons item
      · exact ih.cons item

/-- In an ordered list an item is met again exactly when it is the next one. -/
theorem mem_iff_head?_eq {item : Text}
    (hordered : (item :: rest).Pairwise fun t u => isOrdered t u = true) :
    item ∈ rest ↔ rest.head? = some item := by
  refine ⟨fun hmem => ?_, List.mem_of_head?⟩
  obtain ⟨hitem, hrest⟩ := List.pairwise_cons.1 hordered
  cases rest with
  | nil => exact absurd hmem List.not_mem_nil
  | cons next rest =>
      rcases List.mem_cons.1 hmem with rfl | hmem
      · rfl
      · have hle := hitem next List.mem_cons_self
        have hge := (List.pairwise_cons.1 hrest).1 item hmem
        rw [isOrdered_antisymm hge hle, List.head?_cons]

theorem nodup_repeated (hordered : items.Pairwise fun t u => isOrdered t u = true) :
    (repeated items).Nodup := by
  induction items with
  | nil => exact List.nodup_nil
  | cons item rest ih =>
      have hrest := ih (List.pairwise_cons.1 hordered).2
      rw [repeated]
      split
      · next h =>
        refine List.nodup_cons.2 ⟨fun hmem => h.2 ?_, hrest⟩
        exact (mem_iff_head?_eq (hordered.sublist ((repeated_sublist rest).cons_cons item))).1 hmem
      · exact hrest

/-- An item of an ordered list is repeated when it is met twice. -/
theorem mem_repeated_iff (hordered : items.Pairwise fun t u => isOrdered t u = true) :
    k ∈ repeated items ↔ 2 ≤ items.count k := by
  induction items with
  | nil => simp [repeated]
  | cons item rest ih =>
      have hrest := ih (List.pairwise_cons.1 hordered).2
      by_cases hk : item = k
      · subst hk
        have hcount : 2 ≤ (item :: rest).count item ↔ rest.head? = some item := by
          rw [List.count_cons_self, ← mem_iff_head?_eq hordered, ← List.one_le_count_iff]
          omega
        rw [hcount, repeated]
        constructor
        · intro hmem
          split at hmem
          · next h => exact h.1
          · exact (mem_iff_head?_eq hordered).1 ((repeated_sublist rest).subset hmem)
        · intro hhead
          split
          · exact List.mem_cons_self
          · next h =>
            have hnext : (repeated rest).head? = some item :=
              Classical.byContradiction fun hne => h ⟨hhead, hne⟩
            exact List.mem_of_head? hnext
      · rw [List.count_cons_of_ne hk, ← hrest, repeated]
        split
        · simp [Ne.symm hk]
        · rfl

/-- Where no list has an item twice, it is met as often as there are lists that have it. -/
theorem count_flatten {lists : List (List Text)} (hnodup : ∀ items ∈ lists, items.Nodup)
    (k : Text) : lists.flatten.count k = lists.countP fun items => k ∈ items := by
  induction lists with
  | nil => rfl
  | cons items lists ih =>
      obtain ⟨hitems, hlists⟩ := List.forall_mem_cons.1 hnodup
      rw [List.flatten_cons, List.count_append, ih hlists, List.countP_cons, Nat.add_comm,
        hitems.count]
      simp

/-- **The keys shared by sections** whose bodies have no key twice are those that at least two of
them have, in ascending order. -/
theorem sharedKeys_eq {parts : List Section}
    (hnodup : ∀ part ∈ parts, (part.body.map (key marker)).Nodup) :
    sharedKeys marker parts
      = (distinctKeys marker (parts.flatMap (·.body))).filter fun k =>
          2 ≤ parts.countP fun part => k ∈ part.body.map (key marker) := by
  have hordered : (sortedKeys marker parts).Pairwise fun t u => isOrdered t u = true :=
    mergeSort_pairwise _
  have hcount : ∀ k, (sortedKeys marker parts).count k
      = parts.countP fun part => k ∈ part.body.map (key marker) := by
    intro k
    rw [sortedKeys, (List.mergeSort_perm _ _).count_eq, List.flatMap_def, count_flatten,
      List.countP_map]
    · rfl
    · simpa using hnodup
  refine List.Pairwise.eq_of_mem_iff (r := (· < ·)) ?_ ?_ ?_
  · exact pairwise_lt (hordered.sublist (repeated_sublist _)) (nodup_repeated hordered)
  · exact (distinctKeys_pairwise marker _).sublist List.filter_sublist
  · intro k
    rw [sharedKeys, mem_repeated_iff hordered, hcount, List.mem_filter, decide_eq_true_iff]
    refine ⟨fun h => ⟨?_, h⟩, fun h => h.2⟩
    -- a key that some sections have is the key of a line
    have hpos : 0 < parts.countP fun part => k ∈ part.body.map (key marker) := by omega
    obtain ⟨part, hpart, hk⟩ := List.countP_pos_iff.1 hpos
    obtain ⟨line, hline, hkey⟩ := List.mem_map.1 (of_decide_eq_true hk)
    exact mem_distinctKeys.2 ⟨line, List.mem_flatMap.2 ⟨part, hpart, hline⟩, hkey⟩

/-! ### Files without repeats -/

/-- A section with the first line of every key in its body. -/
def distinct (marker : Text) (part : Section) : Section :=
  ⟨part.header, firstLines marker part.body⟩

theorem sorted_true (marker : Text) (part : Section) :
    sorted marker true part
      = (distinct marker part, (distinctKeys marker part.body).flatMap fun k =>
          repeatRemarks (linesWithKey marker k part.body)) := by
  rw [sorted]
  simp only [if_true, dropRepeats_sortBody, distinct]

/-- No key is left twice in a section. -/
theorem nodup_keys_distinct (marker : Text) (part : Section) :
    ((distinct marker part).body.map (key marker)).Nodup := by
  rw [distinct, map_key_firstLines]
  exact nodup_distinctKeys marker part.body

/-- **Sorting without repeats.**  A file has a section for every run of lines that are not blank,
and the comment lines that the run begins with are its header.  The sections are kept in order, with
single empty lines between them; the header of each is kept, and of its body the first line of every
key, in the order of the keys.  The remarks are first those on the lines dropped, section by section
and in the order of the sorted body: one for every line that is written differently from the line
kept with its key.  Then there is one for every key that is left in at least two sections, in the
order of the keys. -/
theorem sortSections_unique (lines : List Text) (marker : Text) :
    split marker lines
        = ((lines.splitOnP isBlank).filter (· ≠ [])).map (fun run =>
            ⟨run.takeWhile (isComment marker), run.dropWhile (isComment marker)⟩)
      ∧ (∀ body, sortBody marker body
        = (distinctKeys marker body).flatMap fun k => linesWithKey marker k body)
      ∧ (sortSections lines true marker).lines
        = [[]].intercalate (((split marker lines).map (distinct marker)).map fun part =>
            part.header ++ part.body)
      ∧ (sortSections lines true marker).remarks
        = ((split marker lines).flatMap fun part => (distinctKeys marker part.body).flatMap fun k =>
            repeatRemarks (linesWithKey marker k part.body))
          ++ ((distinctKeys marker (((split marker lines).map (distinct marker)).flatMap
              (·.body))).filter fun k => 2 ≤ ((split marker lines).map (distinct marker)).countP
                fun part => k ∈ part.body.map (key marker)).map .shared := by
  have hparts : ((split marker lines).map (sorted marker true)).map (·.1)
      = (split marker lines).map (distinct marker) := by
    rw [List.map_map]
    exact List.map_congr_left fun part _ => congrArg Prod.fst (sorted_true marker part)
  have hremarks : ((split marker lines).map (sorted marker true)).flatMap (·.2)
      = (split marker lines).flatMap fun part => (distinctKeys marker part.body).flatMap fun k =>
          repeatRemarks (linesWithKey marker k part.body) := by
    rw [List.flatMap_map]
    congr 1
    funext part
    exact congrArg Prod.snd (sorted_true marker part)
  have hnodup : ∀ part ∈ (split marker lines).map (distinct marker),
      (part.body.map (key marker)).Nodup := by
    intro part hpart
    obtain ⟨part, -, rfl⟩ := List.mem_map.1 hpart
    exact nodup_keys_distinct marker part
  refine ⟨split_eq marker lines, sortBody_eq_flatMap marker, ?_, ?_⟩
  · rw [sortSections]
    simp only [hparts, join_eq]
    rfl
  · rw [sortSections]
    simp only [hparts, hremarks, if_true, sharedKeys_eq hnodup]

end Section

end GitHooks
