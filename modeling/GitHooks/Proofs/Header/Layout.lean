/-
**How a header is laid out, and that its scan ends.**

The scan of a header is a loop over an index that jumps: to the next line, or behind a block whose
end was looked for.  Here it is done turn by turn.  Every turn that goes on moves the index forward
and not past the end of the file, so there are no more turns than lines.  What has been found,
together with what the scan of the lines that are left will find, is the same before and after a
turn; so what has been found at the end are the segments of the header.

The segments are laid out as the loop visits the lines.  They are runs of lines in order, a line
comment is one line, only one of them is a docstring, and a line between them is one that the scan
passes over.

Main definitions:

* `Header.LaidOut` — how segments lie in a file;
* `InBytes.Progress`, `InBytes.turn`, `InBytes.turns` — the scan of a header, turn by turn.

Main results:

* `Header.laidOut_segments` — how the segments of a header lie;
* `InBytes.turn_cases` — what one turn does;
* `InBytes.turns_eq` — a scan with enough turns comes to its end;
* `Header.scan_lays_out` — the scan ends, goes forward, and lays the segments out.
-/

import GitHooks.Proofs.Header.InBytes

set_option relaxedAutoImplicit false
set_option autoImplicit false

namespace GitHooks

/-! ### The layout -/

namespace Header

open Text

variable {language : Language} {lines : List Text} {seen : Bool} {index : Nat}

/-- Whether a line with an index is one of a segment. -/
def Segment.Has (segment : Segment) (index : Nat) : Prop :=
  segment.lines.start ≤ index ∧ index < segment.lines.stop

/-- How segments lie in a file. -/
structure LaidOut (lines : List Text) (segments : List Segment) : Prop where
  nonempty : ∀ segment ∈ segments, segment.lines.start < segment.lines.stop
  inFile : ∀ segment ∈ segments, segment.lines.stop ≤ lines.length
  /-- Segments are in the order of their lines and have none in common. -/
  ascending : segments.Pairwise fun s t => s.lines.stop ≤ t.lines.start
  oneDocstring : (segments.filter (·.marker == Marker.docstring)).length ≤ 1
  oneLine : ∀ segment ∈ segments, segment.marker = Marker.line →
    segment.lines.stop = segment.lines.start + 1
  /-- A line in front of the end of a segment that is in none is a shebang on the first line, blank,
  or an encoding pragma. -/
  between : ∀ segment ∈ segments, ∀ index < segment.lines.stop,
    (∀ other ∈ segments, ¬ other.Has index) →
      ∃ line, lines[index]? = some line
        ∧ (index = 0 ∧ isShebang line = true ∨ isBlank line = true
          ∨ isEncodingPragma line = true)

theorem count_of_line {t : Text} {following : List Text} {count : Nat}
    (h : segmentAt? language seen t following = some (Marker.line, count)) : count = 1 := by
  rw [segmentAt?, Option.or_eq_some_iff] at h
  rcases h with hcomment | ⟨-, hdocstring⟩
  · cases hc : language.comments with
    | line opening =>
        rw [hc, commentAt?] at hcomment
        split at hcomment
        · exact (Prod.mk.inj (Option.some.inj hcomment)).2.symm
        · cases hcomment
    | block opening closing => simp [commentAt?, hc] at hcomment
  · split at hdocstring
    · simp [docstringAt?] at hdocstring
    · cases hdocstring

/-- A line comment is one line. -/
theorem stop_of_line (language : Language) (seen : Bool) (index : Nat) (lines : List Text) :
    ∀ segment ∈ segmentsFrom language seen index lines, segment.marker = Marker.line →
      segment.lines.stop = segment.lines.start + 1 := by
  induction seen, index, lines using scan_induction language with
  | nil seen index => simp
  | passed seen index line following hp ih => rwa [segmentsFrom_of_isPassed hp]
  | code seen index line following hp hs => simp [segmentsFrom_of_code hp hs]
  | opening seen index line following marker count hp hs ih =>
      intro segment hmem
      rw [segmentsFrom_of_opening hp hs, List.mem_cons] at hmem
      rcases hmem with rfl | hmem
      · rintro rfl
        rw [count_of_line hs]
      · exact ih segment hmem

/-- There is at most one docstring. -/
theorem length_docstrings_le (language : Language) (seen : Bool) (index : Nat)
    (lines : List Text) :
    ((segmentsFrom language seen index lines).filter (·.marker == Marker.docstring)).length
      ≤ 1 := by
  induction seen, index, lines using scan_induction language with
  | nil seen index => simp
  | passed seen index line following hp ih => rwa [segmentsFrom_of_isPassed hp]
  | code seen index line following hp hs => simp [segmentsFrom_of_code hp hs]
  | opening seen index line following marker count hp hs ih =>
      rw [segmentsFrom_of_opening hp hs]
      by_cases hmarker : marker = Marker.docstring
      · -- behind a docstring no other counts
        have hnone := marker_ne_docstring language (seen || marker == Marker.docstring)
          (index + count) (following.drop (count - 1)) (by simp [hmarker])
        have hrest : (segmentsFrom language (seen || marker == Marker.docstring) (index + count)
            (following.drop (count - 1))).filter (·.marker == Marker.docstring) = [] :=
          List.filter_eq_nil_iff.2 fun segment hmem => by simpa using hnone segment hmem
        rw [List.filter_cons_of_pos (by simpa using hmarker), hrest]
        exact Nat.le_refl 1
      · rwa [List.filter_cons_of_neg (by simpa using hmarker)]

/-- A line that the scan has come by and that is in no segment was passed over. -/
theorem isPassed_between (language : Language) (lines : List Text) (seen : Bool) (index : Nat)
    (rest : List Text) (hrest : lines.drop index = rest) :
    ∀ segment ∈ segmentsFrom language seen index rest, ∀ k, index ≤ k → k < segment.lines.stop →
      (∀ other ∈ segmentsFrom language seen index rest, ¬ other.Has k) →
        ∃ line, lines[k]? = some line ∧ isPassed line = true := by
  induction seen, index, rest using scan_induction language with
  | nil seen index => simp
  | passed seen index line following hp ih =>
      obtain ⟨hget, hfollowing⟩ := getElem?_of_drop_eq_cons hrest
      rw [segmentsFrom_of_isPassed hp]
      intro segment hmem k hle hlt hnone
      rcases Nat.eq_or_lt_of_le hle with rfl | hle
      · exact ⟨line, hget, hp⟩
      · exact ih hfollowing segment hmem k hle hlt hnone
  | code seen index line following hp hs => simp [segmentsFrom_of_code hp hs]
  | opening seen index line following marker count hp hs ih =>
      obtain ⟨-, rfl⟩ := getElem?_of_drop_eq_cons hrest
      have hdrop := InBytes.drop_add_of_pos (count_of_segmentAt? hs).1 index lines
      rw [segmentsFrom_of_opening hp hs]
      intro segment hmem k hle hlt hnone
      rw [List.forall_mem_cons] at hnone
      obtain ⟨hfirst, hnone⟩ := hnone
      -- the line is behind the segment that is opened here
      have hbehind : index + count ≤ k := Nat.le_of_not_lt fun h => hfirst ⟨hle, h⟩
      rcases List.mem_cons.1 hmem with rfl | hmem
      · exact absurd hlt (Nat.not_lt.2 hbehind)
      · exact ih hdrop segment hmem k hbehind hlt hnone

/-- **How the segments of a header lie.** -/
theorem laidOut_segments (language : Language) (lines : List Text) :
    LaidOut lines (segments language lines) where
  nonempty segment hmem := (segments_bounds language lines segment hmem).1
  inFile segment hmem := (segments_bounds language lines segment hmem).2
  ascending := segments_pairwise language lines
  oneDocstring := length_docstrings_le language _ _ _
  oneLine := stop_of_line language _ _ _
  between segment hmem k hlt hnone := by
    by_cases hle : (beginsWithShebang lines).toNat ≤ k
    · obtain ⟨line, hget, hp⟩ := isPassed_between language lines false _ _ rfl segment hmem k hle
        hlt hnone
      exact ⟨line, hget, Or.inr (Bool.or_eq_true_iff.1 hp)⟩
    · -- the only line in front of the scan is a shebang
      cases lines with
      | nil => exact absurd (Nat.zero_le k) hle
      | cons line following =>
          cases hshebang : isShebang line with
          | false => exact absurd (by simp [beginsWithShebang, hshebang]) hle
          | true =>
              have hk : k = 0 := by
                rw [beginsWithShebang, hshebang, Bool.toNat_true] at hle
                omega
              exact ⟨line, by rw [hk]; rfl, Or.inl ⟨hk, hshebang⟩⟩

end Header

/-! ### Turn by turn -/

namespace InBytes

open Text
open Header

variable {language : Language} {lines : List Text} {index : Nat} {seen : Bool}
  {found : List Segment} {line : Text}

/-- How far the scan of a header has come: the index of the next line, whether a docstring has been
seen, and the segments that have been found. -/
structure Progress where
  index : Nat
  seen : Bool
  found : List Segment
deriving DecidableEq, Repr, Inhabited

/-- Where the scan begins. -/
def Progress.start (lines : List Text) : Progress := ⟨(beginsWithShebang lines).toNat, false, []⟩

/-- One turn of the scan; there is no next one at the end of the file or at a line of code. -/
def turn (language : Language) (lines : List Text) (progress : Progress) :
    Except Misstep (Option Progress) :=
  if progress.index < lines.length then do
    let line ← itemAt progress.index lines
    let line := trim line
    if line.isEmpty || isEncodingPragma line then
      return some { progress with index := progress.index + 1 }
    else
      match ← segmentAt language lines progress.seen progress.index line with
      | none => return none
      | some (marker, stop) =>
        return some ⟨stop, progress.seen || marker == Marker.docstring,
          progress.found ++ [⟨⟨progress.index, stop⟩, marker⟩]⟩
  else return none

/-- What the scan has found when it ends, if it does so within a number of turns. -/
def turns (language : Language) (lines : List Text) :
    Nat → Progress → Except Misstep (Option (List Segment))
  | 0, _ => return none
  | count + 1, progress => do
    match ← turn language lines progress with
    | none => return some progress.found
    | some next => turns language lines count next

/-- The segments that have been found, and those that will be. -/
def Progress.whole (language : Language) (lines : List Text) (progress : Progress) :
    List Segment :=
  progress.found
    ++ segmentsFrom language progress.seen progress.index (lines.drop progress.index)

theorem whole_start (language : Language) (lines : List Text) :
    (Progress.start lines).whole language lines = Header.segments language lines := rfl

theorem turn_of_end {progress : Progress} (h : lines.length ≤ progress.index) :
    turn language lines progress = Except.ok none := if_neg (Nat.not_lt.2 h)

/-- A line that is passed over is left behind. -/
theorem turn_of_isPassed (hget : lines[index]? = some line) (hp : isPassed line = true) :
    turn language lines ⟨index, seen, found⟩ = Except.ok (some ⟨index + 1, seen, found⟩) := by
  rw [turn, if_pos (List.getElem?_eq_some_iff.1 hget).1, itemAt_of_getElem? hget]
  refine if_pos ?_
  rw [isPassed_trim, hp]

/-- A line that is not passed over is looked at for what it opens. -/
theorem turn_of_not_isPassed (hget : lines[index]? = some line) (hp : isPassed line = false) :
    turn language lines ⟨index, seen, found⟩
      = Except.ok ((segmentAt? language seen (trim line) (lines.drop (index + 1))).map
        fun opened => ⟨index + opened.2, seen || opened.1 == Marker.docstring,
          found ++ [⟨⟨index, index + opened.2⟩, opened.1⟩]⟩) := by
  have hindex := (List.getElem?_eq_some_iff.1 hget).1
  have hopens := segmentAt_eq language seen hindex (trimStart_trim line)
  rw [turn, if_pos hindex, itemAt_of_getElem? hget]
  refine (if_neg ?_).trans ?_
  · rw [isPassed_trim, hp]
    exact Bool.false_ne_true
  · rw [hopens]
    cases segmentAt? language seen (trim line) (lines.drop (index + 1)) with
    | none => rfl
    | some opened => rfl

/-- **What one turn does.**  It ends the scan with all segments found, or it goes forward within the
file and leaves the whole of the segments as it was. -/
theorem turn_cases (language : Language) (lines : List Text) (progress : Progress) :
    (turn language lines progress = Except.ok none
        ∧ progress.found = progress.whole language lines)
      ∨ ∃ next, turn language lines progress = Except.ok (some next)
        ∧ progress.index < next.index ∧ next.index ≤ lines.length
        ∧ next.whole language lines = progress.whole language lines := by
  obtain ⟨index, seen, found⟩ := progress
  cases hrest : lines.drop index with
  | nil =>
      exact Or.inl ⟨turn_of_end (List.drop_eq_nil_iff.1 hrest), by simp [Progress.whole, hrest]⟩
  | cons line following =>
      obtain ⟨hget, rfl⟩ := getElem?_of_drop_eq_cons hrest
      have hindex : index < lines.length := (List.getElem?_eq_some_iff.1 hget).1
      cases hp : isPassed line with
      | true =>
          refine Or.inr ⟨_, turn_of_isPassed hget hp, Nat.lt_succ_self index, hindex, ?_⟩
          simp only [Progress.whole, hrest, segmentsFrom_of_isPassed hp]
      | false =>
          have hturn : turn language lines ⟨index, seen, found⟩ = _ := turn_of_not_isPassed hget hp
          cases hs : segmentAt? language seen (trim line) (lines.drop (index + 1)) with
          | none =>
              rw [hs] at hturn
              refine Or.inl ⟨hturn, ?_⟩
              simp only [Progress.whole, hrest, segmentsFrom_of_code hp hs, List.append_nil]
          | some opened =>
              obtain ⟨marker, count⟩ := opened
              rw [hs] at hturn
              obtain ⟨hpos, hle⟩ := count_of_segmentAt? hs
              rw [List.length_drop] at hle
              refine Or.inr ⟨_, hturn, Nat.lt_add_of_pos_right hpos, by dsimp only; omega, ?_⟩
              simp only [Progress.whole, hrest, segmentsFrom_of_opening hp hs,
                drop_add_of_pos hpos, List.append_assoc, List.singleton_append]

/-- **A scan with enough turns comes to its end**, and has found all segments then. -/
theorem turns_eq (language : Language) (lines : List Text) (count : Nat) (progress : Progress)
    (hcount : lines.length - progress.index < count) :
    turns language lines count progress
      = Except.ok (some (progress.whole language lines)) := by
  induction count generalizing progress with
  | zero => exact absurd hcount (Nat.not_lt_zero _)
  | succ count ih =>
      rw [turns]
      rcases turn_cases language lines progress with
        ⟨hturn, hfound⟩ | ⟨next, hturn, hlt, hle, hwhole⟩
      · rw [hturn, ← hfound]
        rfl
      · -- the turn has used up one count and at least one line
        rw [hturn, ← hwhole]
        exact ih next (by omega)

/-- The end of a block that a line of the file opens is behind that line and within the file. -/
theorem exists_closingLine (afterOpening closing : Text) (hindex : index < lines.length) :
    ∃ stop, closingLine lines index afterOpening closing = Except.ok stop
      ∧ index + 1 ≤ stop ∧ stop ≤ lines.length := by
  have hpos := blockLength_pos closing afterOpening (lines.drop (index + 1))
  have hle := blockLength_le closing afterOpening (lines.drop (index + 1))
  rw [List.length_drop] at hle
  exact ⟨_, closingLine_eq hindex, by omega, by omega⟩

end InBytes

namespace Header

open Text

/-- **The scan of a header ends, goes forward, and lays the segments out.**  It comes to an end
within one turn more than there are lines, with the segments of the header; every turn that goes on
moves forward and stays within the file; so does the search for the end of a block, wherever it
begins; and the segments are runs of lines in order, with only lines between them that are passed
over. -/
theorem scan_lays_out (language : Language) (lines : List Text) :
    (∀ count > lines.length, InBytes.turns language lines count (InBytes.Progress.start lines)
        = Except.ok (some (segments language lines)))
      ∧ (∀ progress next, InBytes.turn language lines progress = Except.ok (some next) →
        progress.index < next.index ∧ next.index ≤ lines.length)
      ∧ (∀ index < lines.length, ∀ afterOpening closing, ∃ stop,
        InBytes.closingLine lines index afterOpening closing = Except.ok stop
          ∧ index + 1 ≤ stop ∧ stop ≤ lines.length)
      ∧ LaidOut lines (segments language lines) := by
  refine ⟨?_, ?_, ?_, laidOut_segments language lines⟩
  · intro count hcount
    rw [← InBytes.whole_start]
    exact InBytes.turns_eq language lines count _ (Nat.lt_of_le_of_lt (Nat.sub_le _ _) hcount)
  · intro progress next hnext
    rcases InBytes.turn_cases language lines progress with ⟨hturn, -⟩ | ⟨other, hturn, hlt, hle, -⟩
    · rw [hturn] at hnext
      cases hnext
    · obtain rfl : other = next := by
        rw [hturn] at hnext
        exact Option.some.inj (Except.ok.inj hnext)
      exact ⟨hlt, hle⟩
  · intro index hindex afterOpening closing
    exact InBytes.exists_closingLine afterOpening closing hindex

/-- Behind a shebang, a blank line, a pragma and a comment, a docstring that is never closed runs to
the end of the file. -/
theorem scan_lays_out_never_closed :
    let lines : List Text := ["#!/usr/bin/python", "", "# coding: utf-8", "# Tools.",
      "\"\"\"Never closed.", "x = 1"]
    let comment : Segment := ⟨⟨3, 4⟩, Marker.line⟩
    let docstring : Segment := ⟨⟨4, 6⟩, Marker.docstring⟩
    InBytes.turns Language.python lines 7 (InBytes.Progress.start lines)
        = Except.ok (some [comment, docstring])
      ∧ InBytes.turn Language.python lines ⟨4, false, [comment]⟩
        = Except.ok (some ⟨6, true, [comment, docstring]⟩)
      ∧ 4 < 6 ∧ 6 ≤ lines.length
      ∧ (∃ stop, InBytes.closingLine lines 4 "Never closed." "\"\"\"" = Except.ok stop
        ∧ 5 ≤ stop ∧ stop ≤ lines.length)
      ∧ LaidOut lines [comment, docstring]
      ∧ ∃ line, lines[2]? = some line
        ∧ (2 = 0 ∧ isShebang line = true ∨ isBlank line = true
          ∨ isEncodingPragma line = true) := by
  intro lines comment docstring
  have hsegments : segments Language.python lines = [comment, docstring] := by decide +kernel
  have hturn : InBytes.turn Language.python lines ⟨4, false, [comment]⟩
      = Except.ok (some ⟨6, true, [comment, docstring]⟩) := by decide
  obtain ⟨hturns, hforward, hclosing, hlaidOut⟩ := scan_lays_out Language.python lines
  rw [hsegments] at hturns hlaidOut
  obtain ⟨hlt, hle⟩ := hforward _ _ hturn
  have hpragma := hlaidOut.between docstring (by decide) 2 (by decide)
    (by rw [List.forall_mem_cons]; simp [Segment.Has, comment, docstring])
  exact ⟨hturns 7 (by decide), hturn, hlt, hle, hclosing 4 (by decide) _ _, hlaidOut, hpragma⟩

end Header

end GitHooks
