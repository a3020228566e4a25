/-
**What a pattern matches.**

A pattern is searched for by trying the ways to match it in order.  Which ways there are does not
depend on the order.  They are told by what stands between the place where the pattern begins and
the place where it ends, constructor by constructor.

Main definitions:

* `Text.Pattern.Matches` — what stands between the beginning and the end of a pattern.

Main results:

* `Text.mem_cuts_iff` — how a class can be repeated;
* `Text.Pattern.mem_ends_iff` — the places where a pattern can end;
* `Text.Pattern.anyOf_matches_iff` — what a list of alternatives matches;
* `Text.Pattern.matches_whole_iff` — a word that ends where a word ends.
-/

import GitHooks.Proofs.Text.Affix
import GitHooks.Proofs.Text.Words
import GitHooks.Text.Pattern

set_option relaxedAutoImplicit false
set_option autoImplicit false

namespace GitHooks

namespace Text

variable {before after before' after' t u v : Text} {p : Char → Bool}

/-! ### Repetition -/

/-- A text is cut wherever nothing but the class stands before. -/
theorem mem_cuts_iff : (u, v) ∈ cuts p t ↔ t = u ++ v ∧ ∀ c ∈ u, p c = true := by
  induction t generalizing u with
  | nil =>
      rw [cuts, List.mem_singleton, Prod.mk.injEq, eq_comm (a := []), List.append_eq_nil_iff]
      refine ⟨fun h => ⟨h, by simp [h.1]⟩, fun h => h.1⟩
  | cons c t ih =>
      by_cases hc : p c = true
      · rw [cuts, if_pos hc, List.mem_append, List.mem_map, List.mem_singleton]
        constructor
        · rintro (⟨⟨u', v'⟩, hcut, heq⟩ | heq)
          · obtain ⟨rfl, rfl⟩ := Prod.mk.inj heq
            obtain ⟨rfl, hall⟩ := ih.1 hcut
            exact ⟨rfl, List.forall_mem_cons.2 ⟨hc, hall⟩⟩
          · obtain ⟨rfl, rfl⟩ := Prod.mk.inj heq
            exact ⟨rfl, List.forall_mem_nil _⟩
        · rintro ⟨ht, hall⟩
          cases u with
          | nil => exact .inr (congrArg _ ht.symm)
          | cons d u =>
              obtain ⟨rfl, rfl⟩ := List.cons.inj ht
              exact .inl ⟨(u, v), ih.2 ⟨rfl, (List.forall_mem_cons.1 hall).2⟩, rfl⟩
      · rw [cuts, if_neg hc, List.mem_singleton, Prod.mk.injEq]
        constructor
        · rintro ⟨rfl, rfl⟩
          exact ⟨rfl, List.forall_mem_nil _⟩
        · rintro ⟨ht, hall⟩
          cases u with
          | nil => exact ⟨rfl, ht.symm⟩
          | cons d u =>
              obtain ⟨rfl, -⟩ := List.cons.inj ht
              exact absurd (hall c List.mem_cons_self) hc

/-! ### Patterns -/

@[simp] theorem between_append (before t after after' : Text) :
    between (before, after) (before ++ t, after') = t :=
  List.drop_left

namespace Pattern

/-- What stands between the beginning and the end of a pattern, with the texts before and behind. -/
def Matches : Pattern → Text → Text → Text → Prop
  | literal piece, _, t, _ => t = piece
  | one p, _, t, _ => ∃ c, p c = true ∧ t = [c]
  | many p, _, t, _ => ∀ c ∈ t, p c = true
  | boundary, before, t, after => t = [] ∧ endsInWord before ≠ startsInWord after
  | seq first second, before, t, after => ∃ u v, t = u ++ v ∧ first.Matches before u (v ++ after)
      ∧ second.Matches (before ++ u) v after
  | either first second, before, t, after =>
    first.Matches before t after ∨ second.Matches before t after

theorem mem_ends_literal_iff {piece : Text} :
    (before', after') ∈ (literal piece).ends (before, after)
      ↔ before' = before ++ piece ∧ after = piece ++ after' := by
  simp only [ends, Option.mem_toList, Option.map_eq_some_iff, dropLeading?_eq_some_iff,
    Prod.mk.injEq]
  constructor
  · rintro ⟨rest, rfl, rfl, rfl⟩
    exact ⟨rfl, rfl⟩
  · rintro ⟨rfl, rfl⟩
    exact ⟨after', rfl, rfl, rfl⟩

theorem mem_ends_one_iff : (before', after') ∈ (one p).ends (before, after)
    ↔ ∃ c, p c = true ∧ before' = before ++ [c] ∧ after = c :: after' := by
  cases after with
  | nil => simp [ends]
  | cons c rest =>
      by_cases hc : p c = true
      · rw [ends, if_pos hc, List.mem_singleton, Prod.mk.injEq]
        constructor
        · rintro ⟨rfl, rfl⟩
          exact ⟨c, hc, rfl, rfl⟩
        · rintro ⟨d, -, rfl, heq⟩
          obtain ⟨rfl, rfl⟩ := List.cons.inj heq
          exact ⟨rfl, rfl⟩
      · rw [ends, if_neg hc]
        constructor
        · intro hmem
          cases hmem
        · rintro ⟨d, hd, -, heq⟩
          obtain ⟨rfl, -⟩ := List.cons.inj heq
          exact absurd hd hc

theorem mem_ends_many_iff : (before', after') ∈ (many p).ends (before, after)
    ↔ ∃ t, before' = before ++ t ∧ after = t ++ after' ∧ ∀ c ∈ t, p c = true := by
  simp only [ends, List.mem_map, Prod.exists, mem_cuts_iff, Prod.mk.injEq]
  constructor
  · rintro ⟨t, v, ⟨rfl, hall⟩, rfl, rfl⟩
    exact ⟨t, rfl, rfl, hall⟩
  · rintro ⟨t, rfl, rfl, hall⟩
    exact ⟨t, after', ⟨rfl, hall⟩, rfl, rfl⟩

theorem mem_ends_boundary_iff : (before', after') ∈ boundary.ends (before, after)
    ↔ before' = before ∧ after' = after ∧ endsInWord before ≠ startsInWord after := by
  by_cases hword : endsInWord before = startsInWord after
  · rw [ends, if_pos hword]
    simp [hword]
  · rw [ends, if_neg hword, List.mem_singleton, Prod.mk.injEq]
    exact ⟨fun ⟨hbefore, hafter⟩ => ⟨hbefore, hafter, hword⟩,
      fun ⟨hbefore, hafter, _⟩ => ⟨hbefore, hafter⟩⟩

/-- **The places where a pattern can end** are those behind what it matches. -/
theorem mem_ends_iff {pattern : Pattern} : (before', after') ∈ pattern.ends (before, after)
    ↔ ∃ t, before' = before ++ t ∧ after = t ++ after' ∧ pattern.Matches before t after' := by
  induction pattern generalizing before after before' after' with
  | literal piece =>
      rw [mem_ends_literal_iff]
      constructor
      · rintro ⟨rfl, rfl⟩
        exact ⟨piece, rfl, rfl, rfl⟩
      · rintro ⟨_, rfl, rfl, rfl⟩
        exact ⟨rfl, rfl⟩
  | one p =>
      rw [mem_ends_one_iff]
      constructor
      · rintro ⟨c, hc, rfl, rfl⟩
        exact ⟨[c], rfl, rfl, c, hc, rfl⟩
      · rintro ⟨_, rfl, rfl, c, hc, rfl⟩
        exact ⟨c, hc, rfl, rfl⟩
  | many p => exact mem_ends_many_iff
  | boundary =>
      rw [mem_ends_boundary_iff]
      constructor
      · rintro ⟨rfl, rfl, hword⟩
        exact ⟨[], (List.append_nil _).symm, rfl, rfl, hword⟩
      · rintro ⟨_, rfl, rfl, rfl, hword⟩
        exact ⟨List.append_nil _, rfl, hword⟩
  | seq first second ihfirst ihsecond =>
      simp only [ends, Matches, List.mem_flatMap, Prod.exists, ihfirst, ihsecond]
      constructor
      · rintro ⟨_, _, ⟨u, rfl, rfl, hfirst⟩, v, rfl, rfl, hsecond⟩
        exact ⟨u ++ v, List.append_assoc _ _ _, (List.append_assoc _ _ _).symm, u, v, rfl, hfirst,
          hsecond⟩
      · rintro ⟨_, rfl, rfl, u, v, rfl, hfirst, hsecond⟩
        exact ⟨_, _, ⟨u, rfl, List.append_assoc _ _ _, hfirst⟩, v, (List.append_assoc _ _ _).symm,
          rfl, hsecond⟩
  | either first second ihfirst ihsecond =>
      simp only [ends, Matches, List.mem_append, ihfirst, ihsecond, ← exists_or, and_or_left]

/-- Alternatives match what one of them does. -/
theorem anyOf_matches_iff {patterns : List Pattern} (hne : patterns ≠ []) :
    (anyOf patterns).Matches before t after
      ↔ ∃ pattern ∈ patterns, pattern.Matches before t after := by
  induction patterns with
  | nil => exact absurd rfl hne
  | cons pattern others ih =>
      cases others with
      | nil => simp [anyOf]
      | cons other others =>
          rw [anyOf, Matches, ih (List.cons_ne_nil _ _)]
          simp only [List.mem_cons, exists_eq_or_imp]

/-- A word that has to end where a word ends is not the beginning of a longer one. -/
theorem matches_whole_iff {word : Text} (hword : IsRun word) :
    (seq (literal word) boundary).Matches before t after
      ↔ t = word ∧ startsInWord after = false := by
  have hends : endsInWord (before ++ word) = true :=
    (endsInWord_append hword.ne_nil before).trans hword.endsInWord
  constructor
  · rintro ⟨_, _, rfl, rfl, rfl, hne⟩
    rw [hends] at hne
    exact ⟨List.append_nil _, Bool.eq_false_iff.2 hne.symm⟩
  · rintro ⟨rfl, hafter⟩
    refine ⟨t, [], (List.append_nil _).symm, rfl, rfl, ?_⟩
    rw [hends, hafter]
    decide

end Pattern

end Text

end GitHooks
