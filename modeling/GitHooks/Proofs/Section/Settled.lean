/-
**Sorting a sorted file.**

A body is settled when it is in the order of its keys and, where repeats are dropped, has no key
twice.  A sorted body is settled, settled bodies are left alone, and part of a settled body is
settled.  The last is what a second sort needs: comment lines can be sorted to the front of a body,
and then they are read as more of the header, so that what is sorted again is only the rest.

Main definitions:

* `Section.IsSettled` — bodies that sorting leaves alone.

Main results:

* `Section.isSettled_sortedBody`, `Section.sortedBody_of_isSettled` — sorting settles a body, and
  leaves a settled one alone;
* `Section.sortedRun_sortedRun` — a sorted run is left alone;
* `Section.sortSections_sortSections` — so is a sorted file;
* `Section.resort_unchanged` — which a second sort reports as unchanged.
-/

import GitHooks.Proofs.Section.Sorted

set_option relaxedAutoImplicit false
set_option autoImplicit false

namespace GitHooks

namespace Section

open Text

variable {marker line kept : Text} {unique : Bool} {body part : List Text}

/-! ### Repeats in an ordered body -/

theorem mem_of_mem_dropRepeatsOf (h : line ∈ (dropRepeatsOf marker kept body).1) : line ∈ body :=
  (dropRepeatsOf_sublist marker kept body).subset h

/-- Behind a line of an ordered body, every key is kept once.  Lines with the same key stand
together, so comparing with the line kept last is comparing with all lines kept. -/
theorem dropRepeatsOf_distinct (marker kept : Text) (body : List Text)
    (hordered : (kept :: body).Pairwise fun a b => lineOrder marker a b = true) :
    (kept :: (dropRepeatsOf marker kept body).1).Pairwise
      fun a b => key marker a ≠ key marker b := by
  induction body generalizing kept with
  | nil => exact List.pairwise_singleton _ _
  | cons line body ih =>
      obtain ⟨hkept, hbody⟩ := List.pairwise_cons.1 hordered
      rw [dropRepeatsOf]
      split
      · exact ih kept (hordered.sublist ((List.sublist_cons_self line body).cons_cons kept))
      · next hne =>
        refine List.pairwise_cons.2 ⟨?_, ih line hbody⟩
        intro other hother
        rcases List.mem_cons.1 hother with rfl | hother
        · exact hne
        · have hmem := mem_of_mem_dropRepeatsOf hother
          intro heq
          -- the key of `line` lies between two equal keys
          have hle : lineOrder marker kept line = true := hkept line List.mem_cons_self
          have hge : lineOrder marker line kept = true := by
            rw [lineOrder, heq]
            exact (List.pairwise_cons.1 hbody).1 other hmem
          exact hne (isOrdered_antisymm hle hge)

theorem dropRepeatsOf_of_distinct
    (hdistinct : (kept :: body).Pairwise fun a b => key marker a ≠ key marker b) :
    (dropRepeatsOf marker kept body).1 = body := by
  induction body generalizing kept with
  | nil => rfl
  | cons line body ih =>
      obtain ⟨hkept, hbody⟩ := List.pairwise_cons.1 hdistinct
      rw [dropRepeatsOf, if_neg (hkept line List.mem_cons_self)]
      exact congrArg (line :: ·) (ih hbody)

/-! ### Settled bodies -/

/-- A body in the order of its keys, and without repeats when `unique` asks for that. -/
structure IsSettled (marker : Text) (unique : Bool) (body : List Text) : Prop where
  ordered : body.Pairwise fun a b => lineOrder marker a b = true
  distinct : unique = true → body.Pairwise fun a b => key marker a ≠ key marker b

/-- Part of a settled body is settled. -/
theorem IsSettled.sublist (h : IsSettled marker unique body) (hsub : part.Sublist body) :
    IsSettled marker unique part where
  ordered := h.ordered.sublist hsub
  distinct hunique := (h.distinct hunique).sublist hsub

theorem isSettled_sortedBody (marker : Text) (unique : Bool) (body : List Text) :
    IsSettled marker unique (sortedBody marker unique body) := by
  have hordered := sortBody_ordered marker body
  cases unique with
  | false => exact ⟨hordered, fun h => absurd h Bool.false_ne_true⟩
  | true =>
      refine ⟨hordered.sublist (dropRepeats_sublist marker _), fun _ => ?_⟩
      cases hsort : sortBody marker body with
      | nil =>
          rw [sortedBody, if_pos rfl, hsort]
          exact List.Pairwise.nil
      | cons line rest =>
          rw [sortedBody, if_pos rfl, hsort]
          rw [hsort] at hordered
          exact dropRepeatsOf_distinct marker line rest hordered

/-- A settled body is left alone. -/
theorem sortedBody_of_isSettled (h : IsSettled marker unique body) :
    sortedBody marker unique body = body := by
  have hsort : sortBody marker body = body := List.mergeSort_of_pairwise h.ordered
  cases unique with
  | false => exact hsort
  | true =>
      rw [sortedBody, if_pos rfl, hsort]
      cases body with
      | nil => rfl
      | cons line rest =>
          exact congrArg (line :: ·) (dropRepeatsOf_of_distinct (h.distinct rfl))

/-! ### Sorted files -/

/-- **A sorted run is left alone.**  Comment lines at the front of its body go to its header, and
what remains of the body is settled. -/
theorem sortedRun_sortedRun (marker : Text) (unique : Bool) (run : List Text) :
    sortedRun marker unique (sortedRun marker unique run) = sortedRun marker unique run := by
  have hheader : ∀ line ∈ run.takeWhile (isComment marker), isComment marker line = true :=
    fun line hline => List.mem_takeWhile_imp hline
  have hbody := isSettled_sortedBody marker unique (run.dropWhile (isComment marker))
  have hrest := hbody.sublist (List.dropWhile_sublist (isComment marker))
  rw [sortedRun, sortedRun, List.takeWhile_append_of_pos hheader,
    List.dropWhile_append_of_pos hheader, sortedBody_of_isSettled hrest, List.append_assoc,
    List.takeWhile_append_dropWhile]

/-- **A sorted file is left alone.** -/
theorem sortSections_sortSections (lines : List Text) (unique : Bool) (marker : Text) :
    (sortSections (sortSections lines unique marker).lines unique marker).lines
      = (sortSections lines unique marker).lines := by
  rw [lines_sortSections (sortSections lines unique marker).lines, runs_sortSections, List.map_map,
    lines_sortSections]
  exact congrArg _ (List.map_congr_left fun run _ => sortedRun_sortedRun marker unique run)

/-- **Sorting once more changes nothing**, and reports no change: although the second pass may read
more of a section as its header, what it sorts is settled. -/
theorem resort_unchanged (lines : List Text) (unique : Bool) (marker : Text) :
    (sortSections (sortSections lines unique marker).lines unique marker).lines
        = (sortSections lines unique marker).lines
      ∧ (sortSections (sortSections lines unique marker).lines unique marker).changed = false := by
  have hlines := sortSections_sortSections lines unique marker
  exact ⟨hlines, (changed_sortSections _ unique marker).2 hlines⟩

end Section

end GitHooks
