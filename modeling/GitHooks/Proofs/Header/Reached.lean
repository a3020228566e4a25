/-
**The lines that the scan of a header reaches.**

The scan of a header goes from line to line: over a line that belongs to no segment to the next one,
and from the first line of a segment to the line behind its last.  It stops at a line of code.  A
line that it reaches tells that every segment opened before has been closed before: an open block
would have run to the end of the lines, and nothing would be reached behind it.  So what stands
behind a line that is reached has had no say in the way to it.

Main definitions:

* `Header.Reaches` — the scan comes to an index, with or without a docstring behind it;
* `Header.StopsAt` — the scan comes to a line of code and stops there.

Main results:

* `Header.Reaches.exists_front` — what was scanned before a line that is reached does not depend on
  the lines behind;
* `Header.segments_append_of_stopsAt` — no segment is found behind a line of code.
-/

import GitHooks.Proofs.Header.Segments

set_option relaxedAutoImplicit false
set_option autoImplicit false

namespace GitHooks

namespace Header

open Text

variable {language : Language} {lines : List Text} {seen : Bool} {index : Nat}

/-! ### The way of the scan -/

/-- The scan of a file comes to an index; `seen` tells whether a docstring is behind it. -/
inductive Reaches (language : Language) (lines : List Text) : Bool → Nat → Prop
  /-- It begins with the first line, or behind a shebang. -/
  | start : Reaches language lines false (beginsWithShebang lines).toNat
  /-- It goes over a blank line or an encoding pragma. -/
  | passed {seen : Bool} {index : Nat} {line : Text} :
      Reaches language lines seen index → lines[index]? = some line → isPassed line = true →
      Reaches language lines seen (index + 1)
  /-- It goes over the lines of a segment. -/
  | opening {seen : Bool} {index : Nat} {line : Text} {marker : Marker} {count : Nat} :
      Reaches language lines seen index → lines[index]? = some line → isPassed line = false →
      segmentAt? language seen (trim line) (lines.drop (index + 1)) = some (marker, count) →
      Reaches language lines (seen || marker == Marker.docstring) (index + count)

/-- The scan of a file comes to the line with an index and stops there: it is not passed over and
opens no segment. -/
def StopsAt (language : Language) (lines : List Text) (index : Nat) : Prop :=
  ∃ seen line, Reaches language lines seen index ∧ lines[index]? = some line
    ∧ isPassed line = false
    ∧ segmentAt? language seen (trim line) (lines.drop (index + 1)) = none

theorem drop_eq_cons {line : Text} (hget : lines[index]? = some line) :
    lines.drop index = line :: lines.drop (index + 1) := by
  obtain ⟨hlt, rfl⟩ := List.getElem?_eq_some_iff.1 hget
  exact List.drop_eq_getElem_cons hlt

/-! ### Lines behind -/

/-- A segment that ends before the last line is the same with other lines behind. -/
theorem segmentAt?_append_of_lt {t : Text} {following : List Text} {marker : Marker} {count : Nat}
    (hs : segmentAt? language seen t following = some (marker, count))
    (hlt : count ≤ following.length) (tail : List Text) :
    segmentAt? language seen t (following ++ tail) = some (marker, count) := by
  obtain ⟨count', hs', hcount⟩ := segmentAt?_append tail hs
  obtain rfl : count' = count := by omega
  exact hs'

/-- Whether a line opens a segment does not depend on the lines behind it. -/
theorem segmentAt?_eq_none {t : Text} {following : List Text}
    (hs : segmentAt? language seen t following = none) (other : List Text) :
    segmentAt? language seen t other = none := by
  rcases segmentAt?_cases language seen t with hn | hl | ⟨_, _, _, _, hb⟩
  · exact hn other
  · simp [hl] at hs
  · simp [hb] at hs

/-- **What was scanned before a line that is reached** does not depend on the lines behind: the scan
has brought the same segments, and goes on from the same place. -/
theorem Reaches.exists_front (h : Reaches language lines seen index) (hlt : index < lines.length)
    (tail : List Text) :
    ∃ front, segments language lines = front ++ segmentsFrom language seen index (lines.drop index)
      ∧ segments language (lines ++ tail)
        = front ++ segmentsFrom language seen index (lines.drop index ++ tail) := by
  induction h with
  | start =>
      have hshebang : beginsWithShebang (lines ++ tail) = beginsWithShebang lines := by
        cases lines with
        | nil => exact absurd hlt (Nat.not_lt_zero _)
        | cons line lines => rfl
      refine ⟨[], rfl, ?_⟩
      rw [segments, hshebang, List.drop_append_of_le_length (Nat.le_of_lt hlt), List.nil_append]
  | passed _ hget hp ih =>
      obtain ⟨front, hlines, htail⟩ := ih (by omega)
      rw [drop_eq_cons hget, segmentsFrom_of_isPassed hp] at hlines
      rw [drop_eq_cons hget, List.cons_append, segmentsFrom_of_isPassed hp] at htail
      exact ⟨front, hlines, htail⟩
  | @opening _ index _ marker count _ hget hp hs ih =>
      have hpos := (count_of_segmentAt? hs).1
      obtain ⟨front, hlines, htail⟩ := ih (by omega)
      -- the segment ends in front of a line, so its end was found
      have hle : count ≤ (lines.drop (index + 1)).length := by
        rw [List.length_drop]
        omega
      have hs' := segmentAt?_append_of_lt hs hle tail
      have hrest : (lines.drop (index + 1)).drop (count - 1) = lines.drop (index + count) := by
        rw [List.drop_drop]
        congr 1
        omega
      rw [drop_eq_cons hget, segmentsFrom_of_opening hp hs, hrest] at hlines
      rw [drop_eq_cons hget, List.cons_append, segmentsFrom_of_opening hp hs',
        List.drop_append_of_le_length (Nat.le_trans (Nat.sub_le _ _) hle), hrest] at htail
      exact ⟨front ++ [⟨⟨index, index + count⟩, marker⟩], by rw [hlines, List.append_assoc]; rfl,
        by rw [htail, List.append_assoc]; rfl⟩

/-- **No segment is found behind a line of code**, and none in front of it changes. -/
theorem segments_append_of_stopsAt (h : StopsAt language lines index) (tail : List Text) :
    segments language (lines ++ tail) = segments language lines := by
  obtain ⟨seen, line, hreach, hget, hp, hs⟩ := h
  have hlt := (List.getElem?_eq_some_iff.1 hget).1
  obtain ⟨front, hlines, htail⟩ := hreach.exists_front hlt tail
  rw [drop_eq_cons hget, segmentsFrom_of_code hp hs] at hlines
  rw [drop_eq_cons hget, List.cons_append,
    segmentsFrom_of_code hp (segmentAt?_eq_none hs _)] at htail
  rw [htail, hlines]

end Header

end GitHooks
