/-
**Entries put in one by one.**

Entries are in the order of their keys, each key once, so a pair is among them exactly when its key
has its value.  Pairs that are put in one after the other leave the last value of every key behind;
when no key comes twice the order in which they are put in does not matter, and entries that are
put in, in any order, are the same entries again.

Main results:

* `Entries.mem_iff_get?` — a pair among entries;
* `Entries.get?_insertAll_of_mem`, `Entries.get?_insertAll_of_not_mem` — the values after some pairs
  have been put in;
* `Entries.insertAll_perm` — entries put in, in any order.
-/

import GitHooks.Entries

set_option relaxedAutoImplicit false
set_option autoImplicit false

namespace GitHooks

namespace Entries

variable {α : Type} {key other : Text} {value : α} {entries : Entries α}
  {pairs : List (Text × α)}

/-! ### One entry -/

/-- A pair is among entries exactly when its key has its value. -/
theorem mem_iff_get? (h : Sorted entries) :
    (key, value) ∈ entries ↔ get? key entries = some value := by
  induction entries with
  | nil => simp
  | cons head rest ih =>
      obtain ⟨k, v⟩ := head
      obtain ⟨hhead, hrest⟩ := List.pairwise_cons.1 h
      rw [List.mem_cons, get?_cons, ih hrest]
      by_cases hk : k = key
      · subst hk
        have hnone : get? k rest = none := get?_eq_none_of_lt fun e he => hhead e he
        simp [hnone, eq_comm]
      · simp [hk, Ne.symm hk]

/-- A key without a value is not among the keys. -/
theorem get?_eq_none_iff (entries : Entries α) :
    get? key entries = none ↔ key ∉ entries.map Prod.fst := by
  induction entries with
  | nil => simp
  | cons head rest ih =>
      obtain ⟨k, v⟩ := head
      rw [get?_cons, List.map_cons, List.mem_cons, not_or, ← ih]
      by_cases hk : k = key
      · simp [hk]
      · simp [hk, Ne.symm hk]

/-- No key comes twice. -/
theorem nodup_keys (h : Sorted entries) : (entries.map Prod.fst).Nodup := by
  refine List.pairwise_map.2 (h.imp fun {a b} hlt heq => ?_)
  rw [heq] at hlt
  exact List.lt_irrefl b.1 hlt

theorem get?_insert (h : Sorted entries) (key other : Text) (value : α) :
    get? other (insert key value entries)
      = if key = other then some value else get? other entries :=
  get?_alter h key other _

/-- Of two values that are put in for a key the second counts. -/
theorem insert_insert (h : Sorted entries) (key : Text) (value value' : α) :
    insert key value' (insert key value entries) = insert key value' entries := by
  have hsorted := sorted_insert h key value
  refine eq_of_get?_eq (sorted_insert hsorted key value') (sorted_insert h key value')
    fun other => ?_
  rw [get?_insert hsorted, get?_insert h, get?_insert h]
  split <;> rfl

/-! ### Several entries -/

/-- The entries with some pairs put in, one after the other. -/
def insertAll (entries : Entries α) (pairs : List (Text × α)) : Entries α :=
  pairs.foldl (fun all (key, value) => insert key value all) entries

theorem insertAll_cons (entries : Entries α) (key : Text) (value : α) (rest : List (Text × α)) :
    insertAll entries ((key, value) :: rest) = insertAll (insert key value entries) rest := rfl

theorem insertAll_append (entries : Entries α) (pairs rest : List (Text × α)) :
    insertAll entries (pairs ++ rest) = insertAll (insertAll entries pairs) rest :=
  List.foldl_append

theorem sorted_insertAll (h : Sorted entries) (pairs : List (Text × α)) :
    Sorted (insertAll entries pairs) := by
  induction pairs generalizing entries with
  | nil => exact h
  | cons pair rest ih => exact ih (sorted_insert h pair.1 pair.2)

/-- A key that is not put in keeps its value. -/
theorem get?_insertAll_of_not_mem (h : Sorted entries) (hkey : key ∉ pairs.map Prod.fst) :
    get? key (insertAll entries pairs) = get? key entries := by
  induction pairs generalizing entries with
  | nil => rfl
  | cons pair rest ih =>
      obtain ⟨k, v⟩ := pair
      rw [List.map_cons, List.mem_cons, not_or] at hkey
      rw [insertAll_cons, ih (sorted_insert h k v) hkey.2, get?_insert h, if_neg (Ne.symm hkey.1)]

/-- A key that is put in once has the value it is put in with. -/
theorem get?_insertAll_of_mem (h : Sorted entries) (hdistinct : (pairs.map Prod.fst).Nodup)
    (hpair : (key, value) ∈ pairs) : get? key (insertAll entries pairs) = some value := by
  induction pairs generalizing entries with
  | nil => simp at hpair
  | cons pair rest ih =>
      obtain ⟨k, v⟩ := pair
      rw [List.map_cons, List.nodup_cons] at hdistinct
      rw [insertAll_cons]
      rcases List.mem_cons.1 hpair with hhead | hrest
      · obtain ⟨rfl, rfl⟩ := Prod.mk.inj hhead
        rw [get?_insertAll_of_not_mem (sorted_insert h key value) hdistinct.1, get?_insert h,
          if_pos rfl]
      · exact ih (sorted_insert h k v) hdistinct.2 hrest

/-- **Entries that are put in, in any order, are the same entries.** -/
theorem insertAll_perm (h : Sorted entries) (hperm : pairs.Perm entries) :
    insertAll [] pairs = entries := by
  have hdistinct : (pairs.map Prod.fst).Nodup := (hperm.map Prod.fst).nodup_iff.2 (nodup_keys h)
  refine eq_of_get?_eq (sorted_insertAll sorted_nil pairs) h fun key => ?_
  cases hget : get? key entries with
  | some value =>
      exact get?_insertAll_of_mem sorted_nil hdistinct
        (hperm.mem_iff.2 ((mem_iff_get? h).2 hget))
  | none =>
      rw [get?_eq_none_iff, ← (hperm.map Prod.fst).mem_iff] at hget
      exact get?_insertAll_of_not_mem sorted_nil hget

end Entries

end GitHooks
