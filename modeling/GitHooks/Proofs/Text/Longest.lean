/-
**Longest runs and first places.**

A search that goes as far as it can finds the longest text of a kind, and one that goes from left to
right finds the first place of a kind.  Both are said here without a search: a run of a class of
characters, of bounded length, at the beginning or the end of a text, is the longest when no other
run there is longer, and a place is the first when no other has less text before it.

Main definitions:

* `Text.IsLongest` — the longest text of a kind;
* `Text.BeginsWith`, `Text.EndsWith` — runs at the beginning and at the end of a text;
* `Text.firstRun`, `Text.lastRun` — the longest of them.

Main results:

* `Text.isLongest_beginsWith_iff`, `Text.isLongest_endsWith_iff` — the longest runs;
* `Text.firstRun_ne_nil_iff`, `Text.lastRun_ne_nil_iff` — where there is a run at all;
* `Text.exists_first` — where there is a place of a kind, there is a first one.
-/

import GitHooks.Text.Basic
import Mathlib.Data.List.TakeWhile
import Mathlib.Order.WellFounded

set_option relaxedAutoImplicit false
set_option autoImplicit false

namespace GitHooks

namespace Text

variable {p : Char → Bool} {most : Nat} {t run : Text}

/-! ### Longest runs -/

/-- The longest text of a kind. -/
structure IsLongest (kind : Text → Prop) (t : Text) : Prop where
  holds : kind t
  longest : ∀ other, kind other → other.length ≤ t.length

/-- A run of at most so many characters of a class that a text begins with. -/
structure BeginsWith (p : Char → Bool) (most : Nat) (t run : Text) : Prop where
  begins : run <+: t
  all : ∀ c ∈ run, p c = true
  length_le : run.length ≤ most

/-- A run of at most so many characters of a class that a text ends with. -/
structure EndsWith (p : Char → Bool) (most : Nat) (t run : Text) : Prop where
  ends : run <:+ t
  all : ∀ c ∈ run, p c = true
  length_le : run.length ≤ most

/-- The longest run that a text begins with. -/
def firstRun (p : Char → Bool) (most : Nat) (t : Text) : Text := (t.takeWhile p).take most

/-- The longest run that a text ends with. -/
def lastRun (p : Char → Bool) (most : Nat) (t : Text) : Text := (firstRun p most t.reverse).reverse

/-- Of the beginnings of a text the longest is the text. -/
theorem isLongest_prefix_iff : IsLongest (· <+: t) run ↔ run = t := by
  constructor
  · rintro ⟨hrun, hlongest⟩
    exact hrun.eq_of_length (Nat.le_antisymm hrun.length_le (hlongest t List.prefix_rfl))
  · rintro rfl
    exact ⟨List.prefix_rfl, fun other hother => hother.length_le⟩

/-- Of the ends of a text the longest is the text. -/
theorem isLongest_suffix_iff : IsLongest (· <:+ t) run ↔ run = t := by
  constructor
  · rintro ⟨hrun, hlongest⟩
    exact hrun.eq_of_length (Nat.le_antisymm hrun.length_le (hlongest t List.suffix_rfl))
  · rintro rfl
    exact ⟨List.suffix_rfl, fun other hother => hother.length_le⟩

theorem beginsWith_iff : BeginsWith p most t run ↔ run <+: firstRun p most t := by
  rw [firstRun, List.prefix_take_iff]
  constructor
  · rintro ⟨⟨rest, rfl⟩, hall, hlength⟩
    rw [List.takeWhile_append_of_pos hall]
    exact ⟨List.prefix_append _ _, hlength⟩
  · rintro ⟨hrun, hlength⟩
    exact ⟨hrun.trans (List.takeWhile_prefix p),
      fun c hc => List.mem_takeWhile_imp (hrun.subset hc), hlength⟩

/-- A run at the end is one at the beginning, read backwards. -/
theorem endsWith_iff_reverse : EndsWith p most t run ↔ BeginsWith p most t.reverse run.reverse := by
  constructor
  · rintro ⟨hends, hall, hlength⟩
    exact ⟨List.reverse_prefix.2 hends, by simpa using hall, by simpa using hlength⟩
  · rintro ⟨hbegins, hall, hlength⟩
    exact ⟨List.reverse_prefix.1 hbegins, by simpa using hall, by simpa using hlength⟩

/-- **The longest run that a text begins with.** -/
theorem isLongest_beginsWith_iff :
    IsLongest (BeginsWith p most t) run ↔ run = firstRun p most t := by
  have hkind : BeginsWith p most t = (· <+: firstRun p most t) :=
    funext fun _ => propext beginsWith_iff
  rw [hkind, isLongest_prefix_iff]

/-- **The longest run that a text ends with.** -/
theorem isLongest_endsWith_iff : IsLongest (EndsWith p most t) run ↔ run = lastRun p most t := by
  have hreverse : IsLongest (EndsWith p most t) run
      ↔ IsLongest (BeginsWith p most t.reverse) run.reverse := by
    constructor
    · rintro ⟨hrun, hlongest⟩
      refine ⟨endsWith_iff_reverse.1 hrun, fun other hother => ?_⟩
      have hle := hlongest other.reverse (endsWith_iff_reverse.2 (by rwa [List.reverse_reverse]))
      simpa using hle
    · rintro ⟨hrun, hlongest⟩
      refine ⟨endsWith_iff_reverse.2 hrun, fun other hother => ?_⟩
      have hle := hlongest other.reverse (endsWith_iff_reverse.1 hother)
      simpa using hle
  rw [hreverse, isLongest_beginsWith_iff, lastRun]
  exact List.reverse_eq_iff

/-- A text begins with a run exactly when it begins with a character of the class. -/
theorem firstRun_ne_nil_iff (hmost : 0 < most) :
    firstRun p most t ≠ [] ↔ ∃ c, t.head? = some c ∧ p c = true := by
  rw [firstRun, Ne, List.take_eq_nil_iff, not_or]
  cases t with
  | nil => simp
  | cons c t => cases hc : p c <;> simp [hc, Nat.ne_of_gt hmost]

/-- A text ends with a run exactly when it ends with a character of the class. -/
theorem lastRun_ne_nil_iff (hmost : 0 < most) :
    lastRun p most t ≠ [] ↔ ∃ c, t.getLast? = some c ∧ p c = true := by
  rw [lastRun, Ne, List.reverse_eq_nil_iff, ← Ne, firstRun_ne_nil_iff hmost, List.head?_reverse]

theorem isLongest_firstRun (p : Char → Bool) (most : Nat) (t : Text) :
    IsLongest (BeginsWith p most t) (firstRun p most t) := isLongest_beginsWith_iff.2 rfl

theorem isLongest_lastRun (p : Char → Bool) (most : Nat) (t : Text) :
    IsLongest (EndsWith p most t) (lastRun p most t) := isLongest_endsWith_iff.2 rfl

/-! ### First places -/

/-- **Where there is a place of a kind, there is a first one.**  A place is told by the texts before
and behind it. -/
theorem exists_first {place : Text → Text → Prop} (h : ∃ front back, place front back) :
    ∃ front back, place front back
      ∧ ∀ before behind, place before behind → front.length ≤ before.length := by
  obtain ⟨front, back, hplace⟩ := h
  obtain ⟨⟨first, rest⟩, hfirst, hmin⟩ :=
    (measure fun cut : Text × Text => cut.1.length).wf.has_min
      {cut | place cut.1 cut.2} ⟨(front, back), hplace⟩
  refine ⟨first, rest, hfirst, fun before behind hbefore => ?_⟩
  exact Nat.not_lt.1 (hmin (before, behind) hbefore)

end Text

end GitHooks
