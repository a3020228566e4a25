/-
**Lines that a header cannot tell apart.**

The scan of a header asks few questions about a line: whether it names an interpreter, whether it
is passed over, what it opens, and which closing markers occur in it.  Two files whose lines agree
in the answers have the same segments.

Main definitions:

* `Header.Alike` — lines about which the scan gets the same answers.

Main results:

* `Header.segments_congr` — files with such lines have the same segments.
-/

import GitHooks.Proofs.Header.Segments
import Mathlib.Data.List.Forall2

set_option relaxedAutoImplicit false
set_option autoImplicit false

namespace GitHooks

namespace Header

open Text

variable {language : Language} {lines lines' : List Text}

/-! ### The questions of the scan -/

/-- Two lines about which the scan of a header gets the same answers. -/
structure Alike (language : Language) (line line' : Text) : Prop where
  shebang : isShebang line = isShebang line'
  passed : isPassed line = isPassed line'
  closes : ∀ closing ∈ closers language, occursIn closing line = occursIn closing line'
  opens : ∀ seen following, segmentAt? language seen (trim line) following
    = segmentAt? language seen (trim line') following

theorem Alike.refl (line : Text) : Alike language line line where
  shebang := rfl
  passed := rfl
  closes := fun _ _ => rfl
  opens := fun _ _ => rfl

/-! ### Files of such lines -/

theorem findIdx?_congr {closing : Text} (hc : closing ∈ closers language)
    (h : List.Forall₂ (Alike language) lines lines') :
    lines.findIdx? (occursIn closing) = lines'.findIdx? (occursIn closing) := by
  induction h with
  | nil => rfl
  | cons ha _ ih => rw [List.findIdx?_cons, List.findIdx?_cons, ha.closes closing hc, ih]

theorem blockLength_congr {closing : Text} (hc : closing ∈ closers language) (afterOpening : Text)
    (h : List.Forall₂ (Alike language) lines lines') :
    blockLength closing afterOpening lines = blockLength closing afterOpening lines' := by
  rw [blockLength, blockLength, findIdx?_congr hc h, h.length_eq]

theorem segmentAt?_congr (seen : Bool) (t : Text)
    (h : List.Forall₂ (Alike language) lines lines') :
    segmentAt? language seen t lines = segmentAt? language seen t lines' := by
  rcases segmentAt?_cases language seen t with hn | hl | ⟨marker, closing, hc, afterOpening, hb⟩
  · rw [hn, hn]
  · rw [hl, hl]
  · rw [hb, hb, blockLength_congr hc afterOpening h]

theorem segmentsFrom_congr (language : Language) (seen : Bool) (index : Nat) (lines : List Text) :
    ∀ lines', List.Forall₂ (Alike language) lines lines' →
      segmentsFrom language seen index lines = segmentsFrom language seen index lines' := by
  induction seen, index, lines using scan_induction language with
  | nil seen index =>
      rintro _ ⟨⟩
      rfl
  | passed seen index line following hp ih =>
      rintro _ (_ | ⟨ha, hf⟩)
      rw [segmentsFrom_of_isPassed hp, segmentsFrom_of_isPassed (ha.passed ▸ hp), ih _ hf]
  | code seen index line following hp hs =>
      rintro _ (_ | ⟨ha, hf⟩)
      rw [segmentAt?_congr _ _ hf, ha.opens] at hs
      rw [segmentsFrom_of_code hp, segmentsFrom_of_code (ha.passed ▸ hp) hs]
      rwa [segmentAt?_congr _ _ hf, ha.opens]
  | opening seen index line following marker count hp hs ih =>
      rintro _ (_ | ⟨ha, hf⟩)
      rw [segmentsFrom_of_opening hp hs, ih _ (List.forall₂_drop _ hf)]
      rw [segmentAt?_congr _ _ hf, ha.opens] at hs
      rw [segmentsFrom_of_opening (ha.passed ▸ hp) hs]

/-- Files whose lines the scan cannot tell apart have the same segments. -/
theorem segments_congr (h : List.Forall₂ (Alike language) lines lines') :
    segments language lines = segments language lines' := by
  have hs : beginsWithShebang lines = beginsWithShebang lines' := by
    cases h with
    | nil => rfl
    | cons ha _ => exact ha.shebang
  rw [segments, segments, hs]
  exact segmentsFrom_congr _ _ _ _ _ (List.forall₂_drop _ h)

/-- Changing one line into one that the scan cannot tell apart keeps the segments. -/
theorem segments_modify {k : Nat} {f : Text → Text}
    (h : ∀ line, lines[k]? = some line → Alike language line (f line)) :
    segments language (lines.modify k f) = segments language lines := by
  refine (segments_congr (List.forall₂_iff_get.2 ⟨by simp, fun i h₁ h₂ => ?_⟩)).symm
  by_cases hk : k = i
  · subst hk
    simpa using h _ (List.getElem?_eq_getElem h₁)
  · simpa [List.getElem_modify, hk] using Alike.refl _

end Header

end GitHooks
