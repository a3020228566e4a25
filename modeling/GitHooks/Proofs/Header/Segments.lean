/-
**How the segments of a header lie.**

The scan of a header passes over blank lines and encoding pragmas, takes a run of lines for every
comment and for the first docstring, and stops at anything else.  Everything said here is by
induction along that scan.  Segments are in the order of their lines, none is empty and none
leaves the file.  The scan does not know where it began, so the segments of lines further down are
the same ones moved; and it never looks back, so lines that are added at the end of a file can
only make its last segment longer or add segments behind it.

Main definitions:

* `Header.isPassed` — the lines that belong to no segment and do not stop the scan;
* `Header.Segment.shift` — a segment further down.

Main results:

* `Header.segments_bounds`, `Header.segments_pairwise` — segments are runs of lines of the file,
  in order;
* `Header.segmentsFrom_shift` — the scan does not depend on where it begins;
* `Header.segmentsFrom_append_of_mem` — lines added at the end keep the segments before them.
-/

import GitHooks.Notice.Header
import GitHooks.Proofs.Text.Trim

set_option relaxedAutoImplicit false
set_option autoImplicit false

namespace GitHooks

namespace Header

open Text

variable {language : Language} {seen : Bool} {index : Nat} {line : Text}
  {following lines : List Text}

/-! ### Steps of the scan -/

/-- Whether a line belongs to no segment and does not stop the scan. -/
def isPassed (line : Text) : Bool := isBlank line || isEncodingPragma line

@[simp] theorem segmentsFrom_nil : segmentsFrom language seen index [] = [] := by
  rw [segmentsFrom]

theorem segmentsFrom_of_isPassed (h : isPassed line = true) :
    segmentsFrom language seen index (line :: following)
      = segmentsFrom language seen (index + 1) following := by
  rw [segmentsFrom, ← isPassed, if_pos h]

theorem segmentsFrom_of_code (h : isPassed line = false)
    (hs : segmentAt? language seen (trim line) following = none) :
    segmentsFrom language seen index (line :: following) = [] := by
  rw [segmentsFrom, ← isPassed, h, if_neg Bool.false_ne_true, hs]

theorem segmentsFrom_of_opening (h : isPassed line = false) {marker : Marker} {count : Nat}
    (hs : segmentAt? language seen (trim line) following = some (marker, count)) :
    segmentsFrom language seen index (line :: following)
      = ⟨⟨index, index + count⟩, marker⟩
        :: segmentsFrom language (seen || marker == Marker.docstring) (index + count)
          (following.drop (count - 1)) := by
  rw [segmentsFrom, ← isPassed, h, if_neg Bool.false_ne_true, hs]

/-- Induction along the scan of a header. -/
theorem scan_induction {motive : Bool → Nat → List Text → Prop} (language : Language)
    (nil : ∀ seen index, motive seen index [])
    (passed : ∀ seen index line following, isPassed line = true →
      motive seen (index + 1) following → motive seen index (line :: following))
    (code : ∀ seen index line following, isPassed line = false →
      segmentAt? language seen (trim line) following = none →
      motive seen index (line :: following))
    (opening : ∀ seen index line following marker count, isPassed line = false →
      segmentAt? language seen (trim line) following = some (marker, count) →
      motive (seen || marker == Marker.docstring) (index + count) (following.drop (count - 1)) →
      motive seen index (line :: following))
    (seen : Bool) (index : Nat) (lines : List Text) : motive seen index lines := by
  induction seen, index, lines using segmentsFrom.induct language with
  | case1 seen index => exact nil seen index
  | case2 seen index line following h ih => exact passed seen index line following h ih
  | case3 seen index line following h hs =>
      exact code seen index line following (Bool.not_eq_true _ ▸ h) hs
  | case4 seen index line following h marker count hs ih =>
      exact opening seen index line following marker count (Bool.not_eq_true _ ▸ h) hs ih

/-! ### Runs of lines -/

/-- The markers that close a block comment or a docstring of a language. -/
def closers (language : Language) : List Text :=
  language.comments.trailing?.toList ++ docstringQuotes

/-- What a line opens is told by the line alone: nothing, a line comment, or a block whose length
is then told by the lines that follow. -/
theorem segmentAt?_cases (language : Language) (seen : Bool) (t : Text) :
    (∀ following, segmentAt? language seen t following = none)
      ∨ (∀ following, segmentAt? language seen t following = some (Marker.line, 1))
      ∨ ∃ marker, ∃ closing ∈ closers language, ∃ afterOpening, ∀ following,
          segmentAt? language seen t following
            = some (marker, blockLength closing afterOpening following) := by
  -- a docstring is opened by the quote in front, whatever follows
  have hd : (∀ following, docstringAt? t following = none)
      ∨ ∃ quote ∈ docstringQuotes, ∀ following, docstringAt? t following
          = some (Marker.docstring, blockLength quote (t.drop quote.length) following) := by
    cases hq : docstringQuote? t with
    | none => exact Or.inl fun following => by simp [docstringAt?, hq]
    | some quote =>
        exact Or.inr ⟨quote, List.mem_of_find?_eq_some hq, fun following => by
          simp [docstringAt?, hq]⟩
  -- a line that opens no comment may still open a docstring
  have hn : (∀ following, commentAt? language.comments t following = none) →
      (∀ following, segmentAt? language seen t following = none)
        ∨ ∃ quote ∈ docstringQuotes, ∀ following, segmentAt? language seen t following
          = some (Marker.docstring, blockLength quote (t.drop quote.length) following) := by
    intro hc
    simp only [segmentAt?, hc, Option.none_or]
    cases language.docstrings && !seen with
    | false => exact Or.inl fun following => rfl
    | true => simpa using hd
  cases hc : language.comments with
  | line opening =>
      cases ho : startsWith t opening with
      | true => exact Or.inr (Or.inl fun following => by simp [segmentAt?, commentAt?, hc, ho])
      | false =>
          rcases hn fun following => by simp [commentAt?, hc, ho] with h | ⟨quote, hq, h⟩
          · exact Or.inl h
          · exact Or.inr (Or.inr ⟨_, quote, List.mem_append_right _ hq, _, h⟩)
  | block opening closing =>
      cases ho : dropLeading? opening t with
      | some afterOpening =>
          exact Or.inr (Or.inr ⟨Marker.block, closing, by simp [closers, hc], afterOpening,
            fun following => by simp [segmentAt?, commentAt?, hc, ho]⟩)
      | none =>
          rcases hn fun following => by simp [commentAt?, hc, ho] with h | ⟨quote, hq, h⟩
          · exact Or.inl h
          · exact Or.inr (Or.inr ⟨_, quote, List.mem_append_right _ hq, _, h⟩)

theorem count_of_segmentAt? {t : Text} {marker : Marker} {count : Nat}
    (h : segmentAt? language seen t following = some (marker, count)) :
    0 < count ∧ count ≤ following.length + 1 := by
  rcases segmentAt?_cases language seen t with hn | hl | ⟨_, closing, -, afterOpening, hb⟩
  · simp [hn] at h
  · obtain ⟨-, rfl⟩ : Marker.line = marker ∧ 1 = count := by simpa [hl] using h
    omega
  · obtain ⟨-, rfl⟩ : _ ∧ blockLength closing afterOpening following = count := by
      simpa [hb] using h
    exact ⟨blockLength_pos _ _ _, blockLength_le _ _ _⟩

/-- A segment is a run of at least one line, within the lines that were scanned. -/
theorem segmentsFrom_bounds (language : Language) (seen : Bool) (index : Nat) (lines : List Text) :
    ∀ segment ∈ segmentsFrom language seen index lines,
      index ≤ segment.lines.start ∧ segment.lines.start < segment.lines.stop
        ∧ segment.lines.stop ≤ index + lines.length := by
  induction seen, index, lines using scan_induction language with
  | nil seen index => simp
  | passed seen index line following h ih =>
      intro segment hs
      rw [segmentsFrom_of_isPassed h] at hs
      have := ih segment hs
      simp only [List.length_cons]
      omega
  | code seen index line following h hs => simp [segmentsFrom_of_code h hs]
  | opening seen index line following marker count h hs ih =>
      intro segment hm
      rw [segmentsFrom_of_opening h hs, List.mem_cons] at hm
      have hc := count_of_segmentAt? hs
      simp only [List.length_cons]
      rcases hm with rfl | hm
      · dsimp only
        omega
      · have := ih segment hm
        simp only [List.length_drop] at this
        omega

theorem segmentsFrom_pairwise (language : Language) (seen : Bool) (index : Nat)
    (lines : List Text) :
    (segmentsFrom language seen index lines).Pairwise fun s t => s.lines.stop ≤ t.lines.start := by
  induction seen, index, lines using scan_induction language with
  | nil seen index => simp
  | passed seen index line following h ih => rwa [segmentsFrom_of_isPassed h]
  | code seen index line following h hs => simp [segmentsFrom_of_code h hs]
  | opening seen index line following marker count h hs ih =>
      rw [segmentsFrom_of_opening h hs, List.pairwise_cons]
      exact ⟨fun segment hm => (segmentsFrom_bounds _ _ _ _ segment hm).1, ih⟩

theorem toNat_beginsWithShebang_le (lines : List Text) :
    (beginsWithShebang lines).toNat ≤ lines.length := by
  cases lines with
  | nil => simp [beginsWithShebang]
  | cons line lines =>
      have := (beginsWithShebang (line :: lines)).toNat_le
      simp only [List.length_cons]
      omega

/-- The segments of a file are runs of at least one of its lines. -/
theorem segments_bounds (language : Language) (lines : List Text) :
    ∀ segment ∈ segments language lines,
      segment.lines.start < segment.lines.stop ∧ segment.lines.stop ≤ lines.length := by
  intro segment hm
  have := segmentsFrom_bounds _ _ _ _ segment hm
  have := toNat_beginsWithShebang_le lines
  simp only [List.length_drop] at *
  omega

/-- The segments of a file are in the order of its lines, and no line is in two of them. -/
theorem segments_pairwise (language : Language) (lines : List Text) :
    (segments language lines).Pairwise fun s t => s.lines.stop ≤ t.lines.start :=
  segmentsFrom_pairwise _ _ _ _

/-! ### Lines further down -/

/-- A segment `offset` lines further down. -/
def Segment.shift (offset : Nat) (segment : Segment) : Segment :=
  ⟨segment.lines.shift offset, segment.marker⟩

/-- The scan does not depend on the index it begins at. -/
theorem segmentsFrom_shift (language : Language) (seen : Bool) (offset index : Nat)
    (lines : List Text) :
    segmentsFrom language seen (offset + index) lines
      = (segmentsFrom language seen index lines).map (Segment.shift offset) := by
  induction seen, index, lines using scan_induction language with
  | nil seen index => simp
  | passed seen index line following h ih =>
      rw [segmentsFrom_of_isPassed h, segmentsFrom_of_isPassed h, ← ih, Nat.add_assoc]
  | code seen index line following h hs =>
      rw [segmentsFrom_of_code h hs, segmentsFrom_of_code h hs, List.map_nil]
  | opening seen index line following marker count h hs ih =>
      rw [segmentsFrom_of_opening h hs, segmentsFrom_of_opening h hs, List.map_cons, ← ih]
      simp [Segment.shift, Span.shift, Nat.add_assoc]

/-- Lines that are passed over move the scan along. -/
theorem segmentsFrom_append_of_isPassed {front : List Text}
    (h : ∀ line ∈ front, isPassed line = true) (lines : List Text) :
    segmentsFrom language seen index (front ++ lines)
      = segmentsFrom language seen (index + front.length) lines := by
  induction front generalizing index with
  | nil => rfl
  | cons line front ih =>
      rw [List.cons_append, segmentsFrom_of_isPassed (h line (List.mem_cons_self ..)),
        ih fun l hl => h l (List.mem_cons_of_mem _ hl), List.length_cons]
      congr 1
      omega

/-! ### Lines added at the end -/

/-- Lines added behind a block leave its length alone if it was closed, and can only make it
longer if it was not. -/
theorem blockLength_append (closing afterOpening : Text) (following more : List Text) :
    blockLength closing afterOpening (following ++ more)
        = blockLength closing afterOpening following
      ∨ blockLength closing afterOpening following = following.length + 1
        ∧ following.length + 1 ≤ blockLength closing afterOpening (following ++ more) := by
  unfold blockLength
  split
  · exact Or.inl rfl
  · rw [List.findIdx?_append]
    cases List.findIdx? (occursIn closing) following with
    | some offset => exact Or.inl rfl
    | none =>
        refine Or.inr ⟨rfl, ?_⟩
        cases List.findIdx? (occursIn closing) more with
        | some offset => simp; omega
        | none => simp

/-- A line opens the same block when lines are added at the end, and the block ends where it did
unless it reached the end. -/
theorem segmentAt?_append {t : Text} {marker : Marker} {count : Nat} (more : List Text)
    (h : segmentAt? language seen t following = some (marker, count)) :
    ∃ count', segmentAt? language seen t (following ++ more) = some (marker, count')
      ∧ (count' = count ∨ count = following.length + 1 ∧ count ≤ count') := by
  rcases segmentAt?_cases language seen t with hn | hl | ⟨_, closing, -, afterOpening, hb⟩
  · simp [hn] at h
  · rw [hl] at h
    exact ⟨count, by rw [hl, h], Or.inl rfl⟩
  · obtain ⟨rfl, rfl⟩ : _ = marker ∧ blockLength closing afterOpening following = count := by
      simpa [hb] using h
    refine ⟨_, hb _, ?_⟩
    rcases blockLength_append closing afterOpening following more with he | ⟨he, hle⟩
    · exact Or.inl he
    · exact Or.inr ⟨he, by omega⟩

/-- The segments of a beginning of a file are segments of the file, which may reach further. -/
theorem segmentsFrom_append_of_mem (language : Language) (seen : Bool) (index : Nat)
    (lines more : List Text) :
    ∀ segment ∈ segmentsFrom language seen index lines,
      ∃ longer ∈ segmentsFrom language seen index (lines ++ more),
        longer.marker = segment.marker ∧ longer.lines.start = segment.lines.start
          ∧ segment.lines.stop ≤ longer.lines.stop := by
  induction seen, index, lines using scan_induction language with
  | nil seen index => simp
  | passed seen index line following h ih =>
      rwa [segmentsFrom_of_isPassed h, List.cons_append, segmentsFrom_of_isPassed h]
  | code seen index line following h hs => simp [segmentsFrom_of_code h hs]
  | opening seen index line following marker count h hs ih =>
      obtain ⟨count', hs', hc⟩ := segmentAt?_append more hs
      have hle : count ≤ count' := by omega
      intro segment hm
      rw [segmentsFrom_of_opening h hs, List.mem_cons] at hm
      rw [List.cons_append, segmentsFrom_of_opening h hs']
      rcases hm with rfl | hm
      · exact ⟨_, List.mem_cons_self .., rfl, rfl, by simpa using hle⟩
      · rcases hc with rfl | ⟨rfl, -⟩
        · have hd : count' - 1 ≤ following.length := by
            have := count_of_segmentAt? hs
            omega
          obtain ⟨longer, hl, hspec⟩ := ih segment hm
          rw [List.drop_append_of_le_length hd]
          exact ⟨longer, List.mem_cons_of_mem _ hl, hspec⟩
        · -- the block reached the end, so nothing was scanned behind it
          simp at hm

end Header

end GitHooks
