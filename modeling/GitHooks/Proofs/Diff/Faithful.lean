/-
**The change of a line, cut out safely.**

What two versions of a line share at their beginning is as long as it can be, and so is what the
rest of both shares at the end; the change is what is left between.  These three are the only ones
of their kind, so the cut is told without the search for it.

The search can be done on bytes: the sizes of equal characters are added up from the front and, in
what is left, from the back, and both versions are cut where the sums say.  Where one version
repeats itself into the other the two sums could run into each other, and where characters share
their first bytes a cut could fall inside one.  Neither happens: every position that is asked for is
there, and what is cut out is the same.

Main definitions:

* `Diff.Parts.Cut` — what the parts of two versions are;
* `Diff.InBytes.render` — the two lines, with the versions cut at positions in bytes.

Main results:

* `Diff.cut_iff` — the parts of two versions are told by what they are;
* `Diff.InBytes.render_eq` — every cut in bytes is possible, and the two lines are the same;
* `Diff.shown_render` — what a terminal shows of the two lines;
* `Diff.render_faithful` — the versions are cut safely, and only the change is coloured.
-/

import GitHooks.Proofs.Diff.Terminal
import GitHooks.Proofs.Text.Longest
import GitHooks.Proofs.Text.Positions

set_option relaxedAutoImplicit false
set_option autoImplicit false

namespace GitHooks

namespace Diff

open Text

variable {old new t u lead tail piece : Text} {p q : Parts}

/-! ### What is shared -/

theorem prefix_sharedLead_iff : piece <+: sharedLead t u ↔ piece <+: t ∧ piece <+: u := by
  induction t generalizing u piece with
  | nil => simp +contextual [sharedLead]
  | cons c t ih =>
      cases u with
      | nil => simp +contextual [sharedLead]
      | cons d u =>
          cases piece with
          | nil => simp
          | cons e piece =>
              rw [sharedLead]
              split
              · next hcd =>
                subst hcd
                rw [List.cons_prefix_cons, List.cons_prefix_cons, List.cons_prefix_cons, ih,
                  and_and_left]
              · next hcd =>
                refine iff_of_false (by simp) ?_
                rintro ⟨ht, hu⟩
                exact hcd ((List.cons_prefix_cons.1 ht).1.symm.trans (List.cons_prefix_cons.1 hu).1)

theorem suffix_sharedTail_iff : piece <:+ sharedTail t u ↔ piece <:+ t ∧ piece <:+ u := by
  rw [← List.reverse_prefix, sharedTail, List.reverse_reverse, prefix_sharedLead_iff,
    List.reverse_prefix, List.reverse_prefix]

/-- **What two texts share at their beginning** is the longest beginning of both. -/
theorem isLongest_lead_iff : IsLongest (fun t => t <+: old ∧ t <+: new) lead
    ↔ lead = sharedLead old new := by
  have hkind : (fun t => t <+: old ∧ t <+: new) = (· <+: sharedLead old new) :=
    funext fun _ => propext prefix_sharedLead_iff.symm
  rw [hkind, isLongest_prefix_iff]

/-- **What two texts share at their end** is the longest end of both. -/
theorem isLongest_tail_iff : IsLongest (fun t => t <:+ old ∧ t <:+ new) tail
    ↔ tail = sharedTail old new := by
  have hkind : (fun t => t <:+ old ∧ t <:+ new) = (· <:+ sharedTail old new) :=
    funext fun _ => propext suffix_sharedTail_iff.symm
  rw [hkind, isLongest_suffix_iff]

/-! ### The parts of two versions -/

/-- What the parts of two versions are: put together they are the versions, and no more could be
shared, first at the beginning and then at the end. -/
structure Parts.Cut (old new : Text) (parts : Parts) : Prop where
  old_eq : parts.lead ++ parts.oldPart ++ parts.tail = old
  new_eq : parts.lead ++ parts.newPart ++ parts.tail = new
  lead_longest : IsLongest (fun t => t <+: old ∧ t <+: new) parts.lead
  tail_longest : IsLongest
    (fun t => t <:+ parts.oldPart ++ parts.tail ∧ t <:+ parts.newPart ++ parts.tail) parts.tail

theorem cut_parts (old new : Text) : (parts old new).Cut old new where
  old_eq := parts_old old new
  new_eq := parts_new old new
  lead_longest := isLongest_lead_iff.2 rfl
  tail_longest := by
    have hold := take_append_sharedTail (old.drop (sharedLead old new).length)
      (new.drop (sharedLead old new).length)
    have hnew := take_append_sharedTail (new.drop (sharedLead old new).length)
      (old.drop (sharedLead old new).length)
    rw [sharedTail_comm] at hnew
    simp only [parts]
    rw [isLongest_tail_iff, hold, hnew]

/-- Two versions are cut in one way only. -/
theorem Parts.Cut.unique (h : p.Cut old new) (hother : q.Cut old new) : p = q := by
  obtain ⟨lead, oldPart, newPart, tail⟩ := p
  obtain ⟨lead', oldPart', newPart', tail'⟩ := q
  obtain rfl : lead = lead' :=
    (isLongest_lead_iff.1 h.lead_longest).trans (isLongest_lead_iff.1 hother.lead_longest).symm
  have hold := h.old_eq.trans hother.old_eq.symm
  have hnew := h.new_eq.trans hother.new_eq.symm
  simp only [List.append_assoc, List.append_cancel_left_eq] at hold hnew
  obtain rfl : tail = tail' := by
    have htail := isLongest_tail_iff.1 h.tail_longest
    have htail' := isLongest_tail_iff.1 hother.tail_longest
    simp only at htail htail'
    rw [htail, htail', hold, hnew]
  simp only [List.append_cancel_right_eq] at hold hnew
  rw [hold, hnew]

/-- **The parts of two versions** are told by what they are. -/
theorem cut_iff : p.Cut old new ↔ p = parts old new :=
  ⟨fun h => h.unique (cut_parts old new), fun h => h ▸ cut_parts old new⟩

/-- The two lines, where the parts of the versions are known. -/
theorem render_of_cut (h : p.Cut old new) (coloured : Bool) :
    render coloured old new = "  - " ++ p.lead ++ mark coloured .red p.oldPart ++ p.tail ++ "\n  + "
      ++ p.lead ++ mark coloured .green p.newPart ++ p.tail := by
  obtain rfl := cut_iff.1 h
  rfl

/-! ### Cuts in bytes -/

/-- The number of bytes that two texts share at their beginning. -/
def InBytes.shared (t u : Text) : Nat :=
  byteLength (((t.zip u).takeWhile fun pair => pair.1 == pair.2).map Prod.fst)

/-- A version cut behind what is shared at the beginning and in front of what is shared at the
end. -/
def InBytes.cut (lead tail : Nat) (line : Text) : Except Misstep (Text × Text × Text) := do
  let stop ← difference (byteLength line) tail
  let middle ← sliceBytes ⟨lead, stop⟩ line
  let front ← takeBytes lead line
  let back ← dropBytes stop line
  return (front, middle, back)

/-- The two versions of a line, one below the other. -/
def InBytes.render (coloured : Bool) (old new : Text) : Except Misstep Text := do
  let lead := InBytes.shared old new
  let oldRest ← dropBytes lead old
  let newRest ← dropBytes lead new
  let tail := InBytes.shared oldRest.reverse newRest.reverse
  let (oldLead, oldPart, oldTail) ← InBytes.cut lead tail old
  let (newLead, newPart, newTail) ← InBytes.cut lead tail new
  return "  - " ++ oldLead ++ mark coloured .red oldPart ++ oldTail ++ "\n  + "
    ++ newLead ++ mark coloured .green newPart ++ newTail

theorem takeWhile_zip (t u : Text) :
    ((t.zip u).takeWhile fun pair => pair.1 == pair.2).map Prod.fst = sharedLead t u := by
  induction t generalizing u with
  | nil => rfl
  | cons c t ih =>
      cases u with
      | nil => rfl
      | cons d u => by_cases hcd : c = d <;> simp [sharedLead, hcd, ih]

theorem InBytes.shared_eq (t u : Text) : shared t u = byteLength (sharedLead t u) :=
  congrArg byteLength (takeWhile_zip t u)

theorem InBytes.shared_reverse (t u : Text) :
    shared t.reverse u.reverse = byteLength (sharedTail t u) := by
  rw [shared_eq, sharedTail, byteLength_reverse]

/-- A version is cut around its middle. -/
theorem InBytes.cut_append (front middle back : Text) :
    cut (byteLength front) (byteLength back) (front ++ middle ++ back)
      = Except.ok (front, middle, back) := by
  have hstop : difference (byteLength (front ++ middle ++ back)) (byteLength back)
      = Except.ok (byteLength (front ++ middle)) := by
    rw [byteLength_append, Nat.add_comm, difference_add]
  have hfront : takeBytes (byteLength front) (front ++ middle ++ back) = Except.ok front := by
    rw [List.append_assoc, takeBytes_append]
  rw [cut, hstop]
  change (sliceBytes ⟨byteLength front, byteLength (front ++ middle)⟩
    (front ++ middle ++ back)).bind _ = _
  rw [sliceBytes_append]
  change (takeBytes (byteLength front) (front ++ middle ++ back)).bind _ = _
  rw [hfront]
  change (dropBytes (byteLength (front ++ middle)) (front ++ middle ++ back)).bind _ = _
  rw [dropBytes_append]
  rfl

/-- **Every cut in bytes is possible**, and the two lines are the same. -/
theorem InBytes.render_eq (coloured : Bool) (old new : Text) :
    render coloured old new = Except.ok (Diff.render coloured old new) := by
  have hcut := cut_parts old new
  rw [render_of_cut hcut]
  have hlead : shared old new = byteLength (parts old new).lead := shared_eq old new
  generalize parts old new = p at hcut hlead
  obtain ⟨lead, oldPart, newPart, tail⟩ := p
  obtain ⟨rfl, rfl, -, htail⟩ := hcut
  have htail : shared (oldPart ++ tail).reverse (newPart ++ tail).reverse = byteLength tail := by
    rw [shared_reverse, ← isLongest_tail_iff.1 htail]
  have hdrop : ∀ part : Text, dropBytes (byteLength lead) (lead ++ part ++ tail)
      = Except.ok (part ++ tail) := by
    intro part
    rw [List.append_assoc, dropBytes_append]
  unfold render
  simp only [hlead, hdrop]
  change (cut (byteLength lead) (shared (oldPart ++ tail).reverse (newPart ++ tail).reverse)
    (lead ++ oldPart ++ tail)).bind _ = _
  rw [htail, cut_append]
  change (cut (byteLength lead) (byteLength tail) (lead ++ newPart ++ tail)).bind _ = _
  rw [cut_append]
  rfl

/-! ### The two lines -/

/-- Without colours the two lines are the two versions. -/
theorem render_plain (old new : Text) :
    render false old new = "  - " ++ old ++ "\n  + " ++ new := by
  have hcut := cut_parts old new
  rw [render_of_cut hcut]
  generalize parts old new = p at hcut
  obtain ⟨rfl, rfl, -, -⟩ := hcut
  simp only [mark, Bool.false_eq_true, if_false, List.append_assoc]

/-- **What a terminal shows of the two lines**: the change of each version in its colour, and all
else in none. -/
theorem shown_render (h : p.Cut old new) (hold : Colourless old) (hnew : Colourless new) :
    shown (render true old new)
      = inColour none ("  - " ++ visible p.lead)
        ++ inColour (some .red) (visible p.oldPart)
        ++ inColour none (visible p.tail ++ "\n  + " ++ visible p.lead)
        ++ inColour (some .green) (visible p.newPart)
        ++ inColour none (visible p.tail) := by
  rw [render_of_cut h]
  obtain ⟨lead, oldPart, newPart, tail⟩ := p
  obtain ⟨rfl, rfl, -, -⟩ := h
  have hlead : Colourless lead := hold.of_infix ⟨[], oldPart ++ tail, by simp⟩
  have htail : Colourless tail := hold.of_infix ⟨lead ++ oldPart, [], by simp⟩
  have holdPart : Colourless oldPart := hold.of_infix ⟨lead, tail, rfl⟩
  have hnewPart : Colourless newPart := hnew.of_infix ⟨lead, tail, rfl⟩
  have hbreak : ∀ u : Text, Separate ("\n  + " ++ u) := fun _ => separate_newline _
  have hlast : shownIn none (signals tail) = inColour none (visible tail) := shown_plain htail
  simp only [mark, if_true, List.append_assoc, shown]
  rw [shownIn_append_of_not_mem (by decide), shownIn_plain hlead (separate_paint _ _ _),
    shownIn_paint holdPart, shownIn_plain htail (hbreak _), shownIn_append_of_not_mem (by decide),
    shownIn_plain hlead (separate_paint _ _ _), shownIn_paint hnewPart, hlast]
  simp only [inColour, List.map_append, List.append_assoc]

/-- **The versions are cut safely, and only the change is coloured.**  There is one way to cut two
versions into what they share at their beginning, as long as it can be, what they share at the end
of the rest, as long as it can be, and the change between.  Every cut in bytes that is made for it
is possible.  Only the change of each version is painted, and without colours the two lines are the
two versions.  On a terminal, where the versions turn no colour on themselves, the change of each is
shown in its colour, and all else in none. -/
theorem render_faithful (old new : Text) :
    ∃ p : Parts, p.Cut old new ∧ (∀ q : Parts, q.Cut old new → q = p)
      ∧ (∀ coloured, InBytes.render coloured old new = Except.ok (render coloured old new))
      ∧ render true old new = "  - " ++ p.lead ++ paint .red p.oldPart ++ p.tail ++ "\n  + "
        ++ p.lead ++ paint .green p.newPart ++ p.tail
      ∧ render false old new = "  - " ++ old ++ "\n  + " ++ new
      ∧ (Colourless old → Colourless new → shown (render true old new)
        = inColour none ("  - " ++ visible p.lead)
          ++ inColour (some .red) (visible p.oldPart)
          ++ inColour none (visible p.tail ++ "\n  + " ++ visible p.lead)
          ++ inColour (some .green) (visible p.newPart)
          ++ inColour none (visible p.tail)) :=
  ⟨parts old new, cut_parts old new, fun _ h => cut_iff.1 h,
    fun coloured => InBytes.render_eq coloured old new, render_of_cut (cut_parts old new) true,
    render_plain old new, shown_render (cut_parts old new)⟩

/-- The changed characters share their first byte, one version repeats itself, and colours are
turned off within the change. -/
theorem render_faithful_reset :
    let old : Text := "aaé\x1b[0m!"
    let new : Text := "aaè\x1b[0maa!"
    let oldLine : Text := "  - aa\x1b[31mé\x1b[0m\x1b[31m\x1b[0m!"
    let newLine : Text := "  + aa\x1b[32mè\x1b[0m\x1b[32maa\x1b[0m!"
    Colourless old ∧ Colourless new
      ∧ InBytes.render true old new = Except.ok (oldLine ++ "\n" ++ newLine)
      ∧ shown (render true old new)
        = inColour none "  - aa" ++ inColour (some .red) "é" ++ inColour none "!\n  + aa"
          ++ inColour (some .green) "èaa" ++ inColour none "!" := by
  intro old new oldLine newLine
  have hold : Colourless old := fun colour => by cases colour <;> decide +kernel
  have hnew : Colourless new := fun colour => by cases colour <;> decide +kernel
  have hparts : (⟨"aa", "é\x1b[0m", "è\x1b[0maa", "!"⟩ : Parts).Cut old new :=
    cut_iff.2 (by decide +kernel)
  obtain ⟨p, -, hunique, hbytes, hcoloured, -, hshown⟩ := render_faithful old new
  obtain rfl := hunique _ hparts
  refine ⟨hold, hnew, ?_, ?_⟩
  · rw [hbytes, hcoloured]
    decide +kernel
  · rw [hshown hold hnew]
    decide +kernel

end Diff

end GitHooks
