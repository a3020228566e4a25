/-
**Entries sorted by key.**

Tables, sections and blocks of settings are finite maps from texts.  They are held as lists of
pairs in ascending order of their keys, each key once, so that walking one is walking it in order.
Every way to change a map goes through `Entries.alter`, which keeps the order.

Main definitions:

* `Entries` — pairs of keys and values;
* `Entries.get?` — the value of a key;
* `Entries.alter`, `Entries.insert` — changing and setting the value of a key;
* `Entries.ofList` — the map that some pairs describe, where later pairs win;
* `Entries.unionWith` — two maps as one.

Main results:

* `Entries.get?_alter` — changing a key changes its value, and no other;
* `Entries.sorted_alter`, `Entries.sorted_unionWith` — the order is kept;
* `Entries.get?_unionWith` — the value of a key in two maps as one;
* `Entries.eq_of_get?_eq` — a map is told by its values.
-/

import GitHooks.Text.Basic

set_option relaxedAutoImplicit false
set_option autoImplicit false

namespace GitHooks

/-- Pairs of keys and values. -/
abbrev Entries (α : Type) := List (Text × α)

namespace Entries

variable {α : Type}

/-- The value of a key. -/
def get? (key : Text) : Entries α → Option α
  | [] => none
  | (k, value) :: rest => if k = key then some value else get? key rest

/-- Whether a key has a value. -/
def contains (key : Text) (entries : Entries α) : Bool := (get? key entries).isSome

/-- The entry of a key with a value, if there is one, in front of other entries. -/
def entry (key : Text) (value? : Option α) (rest : Entries α) : Entries α :=
  match value? with
  | some value => (key, value) :: rest
  | none => rest

/-- The entries with the value of a key changed; `change` is told the value the key has. -/
def alter (key : Text) (change : Option α → Option α) : Entries α → Entries α
  | [] => entry key (change none) []
  | (k, value) :: rest =>
    if k = key then entry key (change (some value)) rest
    else if key < k then entry key (change none) ((k, value) :: rest)
    else (k, value) :: alter key change rest

/-- The entries with the value of a key set. -/
def insert (key : Text) (value : α) (entries : Entries α) : Entries α :=
  alter key (fun _ => some value) entries

/-- The entries that some pairs describe; of pairs with one key the last wins. -/
def ofList (pairs : List (Text × α)) : Entries α :=
  pairs.foldl (fun entries (key, value) => insert key value entries) []

/-- Two maps as one; `combine` is told the values of both where both have one. -/
def unionWith (combine : α → α → α) (upper lower : Entries α) : Entries α :=
  upper.foldr
    (fun (key, value) entries =>
      alter key (fun other => some ((other.map (combine value)).getD value)) entries)
    lower

/-- Whether the keys ascend. -/
def Sorted (entries : Entries α) : Prop := entries.Pairwise fun a b => a.1 < b.1

/-! ### Values -/

@[simp] theorem get?_nil (key : Text) : get? key ([] : Entries α) = none := rfl

theorem get?_cons (key k : Text) (value : α) (rest : Entries α) :
    get? key ((k, value) :: rest) = if k = key then some value else get? key rest := rfl

theorem get?_eq_none_of_lt {key : Text} {entries : Entries α}
    (h : ∀ entry ∈ entries, key < entry.1) : get? key entries = none := by
  induction entries with
  | nil => rfl
  | cons entry rest ih =>
    have hlt := h entry (by simp)
    have hne : entry.1 ≠ key := fun heq => List.lt_irrefl key (heq ▸ hlt)
    rw [get?_cons, if_neg hne]
    exact ih fun e he => h e (by simp [he])

/-- Changing a key changes its value, and no other. -/
theorem get?_alter {entries : Entries α} (h : Sorted entries) (key other : Text)
    (change : Option α → Option α) :
    get? other (alter key change entries)
      = if key = other then change (get? key entries) else get? other entries := by
  induction entries with
  | nil =>
    cases hc : change none <;> by_cases hk : key = other <;>
      simp [alter, entry, get?_cons, hc, hk]
  | cons head rest ih =>
    obtain ⟨k, value⟩ := head
    have hrest : Sorted rest := (List.pairwise_cons.1 h).2
    have hhead : ∀ e ∈ rest, k < e.1 := (List.pairwise_cons.1 h).1
    simp only [alter]
    split
    · next hk =>
      subst hk
      cases hc : change (some value) <;> by_cases ho : k = other <;>
        simp_all [entry, get?_cons]
      exact get?_eq_none_of_lt fun e he => hhead e.1 e.2 he
    · next hk =>
      split
      · next hlt =>
        have hnone : get? key rest = none :=
          get?_eq_none_of_lt fun e he => List.lt_trans hlt (hhead e he)
        cases hc : change none <;> by_cases ho : key = other <;>
          simp_all [entry, get?_cons]
      · by_cases ho : key = other
        · subst ho
          simp [get?_cons, hk, ih hrest]
        · simp [get?_cons, ih hrest, ho]

/-! ### Order -/

/-- Of two texts one comes first. -/
theorem lt_of_not_lt {a b : Text} (h : ¬b < a) (hne : a ≠ b) : a < b :=
  (List.le_iff_lt_or_eq.1 (List.not_lt.1 h)).resolve_right hne

@[simp] theorem sorted_nil : Sorted ([] : Entries α) := List.Pairwise.nil

theorem key_of_mem_entry {key : Text} {value? : Option α} {rest : Entries α} {e : Text × α}
    (he : e ∈ entry key value? rest) : e.1 = key ∨ e ∈ rest := by
  cases value? with
  | none => exact Or.inr he
  | some value =>
    rcases List.mem_cons.1 he with rfl | he
    · exact Or.inl rfl
    · exact Or.inr he

/-- An entry of changed entries has the changed key, or was there before. -/
theorem key_of_mem_alter {key : Text} {change : Option α → Option α} {entries : Entries α}
    {e : Text × α} (he : e ∈ alter key change entries) : e.1 = key ∨ e ∈ entries := by
  induction entries with
  | nil => exact key_of_mem_entry he
  | cons head rest ih =>
    obtain ⟨k, value⟩ := head
    simp only [alter] at he
    split at he
    · exact (key_of_mem_entry he).imp id (List.mem_cons_of_mem _)
    · split at he
      · exact key_of_mem_entry he
      · rcases List.mem_cons.1 he with rfl | he
        · exact Or.inr List.mem_cons_self
        · exact (ih he).imp id (List.mem_cons_of_mem _)

theorem sorted_entry {key : Text} {value? : Option α} {rest : Entries α} (h : Sorted rest)
    (hlt : ∀ e ∈ rest, key < e.1) : Sorted (entry key value? rest) := by
  cases value? with
  | none => exact h
  | some value => exact List.pairwise_cons.2 ⟨hlt, h⟩

/-- Changing a key keeps the order. -/
theorem sorted_alter {entries : Entries α} (h : Sorted entries) (key : Text)
    (change : Option α → Option α) : Sorted (alter key change entries) := by
  induction entries with
  | nil => exact sorted_entry h (by simp)
  | cons head rest ih =>
    obtain ⟨k, value⟩ := head
    obtain ⟨hhead, hrest⟩ := List.pairwise_cons.1 h
    simp only [alter]
    split
    · next hk => exact sorted_entry hrest fun e he => hk ▸ hhead e he
    · next hk =>
      split
      · next hlt =>
        refine sorted_entry h fun e he => ?_
        rcases List.mem_cons.1 he with rfl | he
        · exact hlt
        · exact List.lt_trans hlt (hhead e he)
      · next hlt =>
        refine List.pairwise_cons.2 ⟨fun e he => ?_, ih hrest⟩
        rcases key_of_mem_alter he with hkey | he
        · exact hkey ▸ lt_of_not_lt hlt hk
        · exact hhead e he

theorem sorted_insert {entries : Entries α} (h : Sorted entries) (key : Text) (value : α) :
    Sorted (insert key value entries) := sorted_alter h key _

theorem sorted_unionWith {lower : Entries α} (h : Sorted lower) (combine : α → α → α)
    (upper : Entries α) : Sorted (unionWith combine upper lower) := by
  induction upper with
  | nil => exact h
  | cons head rest ih => exact sorted_alter ih head.1 _

/-! ### Two maps -/

/-- The value of a key in two maps as one. -/
theorem get?_unionWith {upper lower : Entries α} (hu : Sorted upper) (hl : Sorted lower)
    (combine : α → α → α) (key : Text) :
    get? key (unionWith combine upper lower)
      = match get? key upper with
        | some value => some (((get? key lower).map (combine value)).getD value)
        | none => get? key lower := by
  induction upper generalizing key with
  | nil => rfl
  | cons head rest ih =>
    obtain ⟨k, value⟩ := head
    obtain ⟨hhead, hrest⟩ := List.pairwise_cons.1 hu
    have hk : get? k (unionWith combine rest lower) = get? k lower := by
      rw [ih hrest k, get?_eq_none_of_lt fun e he => hhead e he]
    change get? key (alter k _ (unionWith combine rest lower)) = _
    rw [get?_alter (sorted_unionWith hl combine rest), hk, ih hrest key, get?_cons]
    by_cases hkey : k = key
    · simp [hkey]
    · simp [hkey]

/-- Maps with the same values are the same. -/
theorem eq_of_get?_eq {a b : Entries α} (ha : Sorted a) (hb : Sorted b)
    (h : ∀ key, get? key a = get? key b) : a = b := by
  induction a generalizing b with
  | nil =>
    cases b with
    | nil => rfl
    | cons head rest =>
      obtain ⟨k, value⟩ := head
      simpa [get?_cons] using h k
  | cons head rest ih =>
    obtain ⟨k, value⟩ := head
    obtain ⟨hhead, hrest⟩ := List.pairwise_cons.1 ha
    cases b with
    | nil => simpa [get?_cons] using h k
    | cons head' rest' =>
      obtain ⟨k', value'⟩ := head'
      obtain ⟨hhead', hrest'⟩ := List.pairwise_cons.1 hb
      have hk : k = k' := by
        by_cases hlt : k < k'
        · have := h k
          rw [get?_cons, if_pos rfl, get?_cons,
            if_neg fun heq : k' = k => List.lt_irrefl k (heq ▸ hlt),
            get?_eq_none_of_lt fun e he => List.lt_trans hlt (hhead' e he)] at this
          simp at this
        · by_cases heq : k = k'
          · exact heq
          · have hgt : k' < k := lt_of_not_lt hlt (Ne.symm heq)
            have := h k'
            rw [get?_cons, if_neg heq,
              get?_eq_none_of_lt fun e he => List.lt_trans hgt (hhead e he), get?_cons,
              if_pos rfl] at this
            simp at this
      subst hk
      have hv : value = value' := by simpa [get?_cons] using h k
      subst hv
      refine congrArg _ (ih hrest hrest' fun key => ?_)
      by_cases hkey : k = key
      · subst hkey
        rw [get?_eq_none_of_lt fun e he => hhead e he, get?_eq_none_of_lt fun e he => hhead' e he]
      · simpa [get?_cons, hkey] using h key

end Entries

end GitHooks
