/-
**The scan of a header, over the indices of its lines.**

The scan of a header is stated on the lines that are left, where what comes next is always there.
Here it is done over the indices of lines.  A line is asked for by its index, the lines behind it by
the next index, and the text behind a quote by a position in bytes.  Each question is checked to
have an answer, and each turn is checked to go forward.  All the checks pass, whatever characters
the lines hold, and the segments that come out are the same.

Main definitions:

* `InBytes.segments` — the segments of the header of a file, by a scan over the indices of lines.

Main results:

* `InBytes.segments_eq` — the scan finds what it asks for, and finds the same segments;
* `InBytes.startsWith_of_block` — a block comment begins with the marker that opens it.
-/

import GitHooks.Proofs.Header.Docstring
import GitHooks.Proofs.Text.Contents
import GitHooks.Proofs.Text.Positions

set_option relaxedAutoImplicit false
set_option autoImplicit false

namespace GitHooks

namespace Text

variable {piece t blank : Text}

theorem solid_of_all (h : (piece.all fun c => !isSpace c) = true) :
    ∀ c ∈ piece, isSpace c = false := by
  simpa using h

/-- A piece without white space in front of a text is in front of what trimming leaves. -/
theorem startsWith_append_blank (hsolid : ∀ c ∈ piece, isSpace c = false)
    (hblank : isBlank blank = true) (t : Text) :
    startsWith (t ++ blank) piece = startsWith t piece := by
  cases blank with
  | nil => rw [List.append_nil]
  | cons c blank =>
      have hspace : isSpace c = true := (List.all_eq_true.1 hblank) c List.mem_cons_self
      have hc : c ∉ piece := by
        intro hmem
        rw [hsolid c hmem] at hspace
        exact Bool.false_ne_true hspace
      rw [Bool.eq_iff_iff, startsWith_iff, startsWith_iff]
      exact prefix_append_cons_iff hc

theorem startsWith_trimEnd (hsolid : ∀ c ∈ piece, isSpace c = false) (t : Text) :
    startsWith (trimEnd t) piece = startsWith t piece := by
  obtain ⟨blank, hblank, ht⟩ := exists_trimEnd_append t
  have hstart := startsWith_append_blank hsolid hblank (trimEnd t)
  rw [← ht] at hstart
  exact hstart.symm

theorem trimStart_trim (t : Text) : trimStart (trim t) = trim t := by
  by_cases h : trim t = []
  · rw [h]
    rfl
  · obtain ⟨⟨d, u, hd, hspace⟩, -⟩ := ends_of_trim_eq (trim_trim t) h
    rw [hd, trimStart_cons hspace]

end Text

namespace InBytes

open Text
open Header

variable {language : Language} {lines : List Text} {index : Nat}
  {line closing afterOpening : Text}

/-! ### The scan -/

/-- One past the line that closes a block, which is opened by the line with the given index. -/
def closingLine (lines : List Text) (index : Nat) (afterOpening closing : Text) :
    Except Misstep Nat :=
  if occursIn closing afterOpening then return index + 1
  else do
    let following ← itemsFrom (index + 1) lines
    match following.findIdx? (occursIn closing) with
    | some offset => return index + offset + 2
    | none => return lines.length

/-- The marker of the docstring that a line opens, and one past its last line. -/
def docstringAt (lines : List Text) (index : Nat) (line : Text) :
    Except Misstep (Option (Marker × Nat)) :=
  match docstringQuote? line with
  | some quote => do
    let afterOpening ← dropBytes (byteLength quote) line
    let stop ← closingLine lines index afterOpening quote
    return some (Marker.docstring, stop)
  | none => return none

/-- The marker of the segment that a line opens, and one past its last line. -/
def segmentAt (language : Language) (lines : List Text) (seen : Bool) (index : Nat) (line : Text) :
    Except Misstep (Option (Marker × Nat)) :=
  let docstring :=
    if language.docstrings && !seen then docstringAt lines index line else return none
  match language.comments with
  | CommentStyle.line marker =>
    if startsWith line marker then return some (Marker.line, index + 1) else docstring
  | CommentStyle.block opening closing =>
    match dropLeading? opening line with
    | some afterOpening => do
      let stop ← closingLine lines index afterOpening closing
      return some (Marker.block, stop)
    | none => docstring

/-- The segments of a header from the line with the given index on. -/
def segmentsAt (language : Language) (lines : List Text) (seen : Bool) (index : Nat) :
    Except Misstep (List Segment) :=
  if _ : index < lines.length then do
    let line ← itemAt index lines
    let line := trim line
    if line.isEmpty || isEncodingPragma line then segmentsAt language lines seen (index + 1)
    else
      match ← segmentAt language lines seen index line with
      | none => return []
      | some (marker, stop) =>
        if _ : index < stop then
          let rest ← segmentsAt language lines (seen || marker == Marker.docstring) stop
          return ⟨⟨index, stop⟩, marker⟩ :: rest
        else throw Misstep.stuck
  else return []
termination_by lines.length - index

/-- The segments of the header of a file. -/
def segments (language : Language) (lines : List Text) : Except Misstep (List Segment) :=
  segmentsAt language lines false (beginsWithShebang lines).toNat

theorem closingLine_eq (hindex : index < lines.length) :
    closingLine lines index afterOpening closing
      = Except.ok (index + blockLength closing afterOpening (lines.drop (index + 1))) := by
  rw [closingLine, blockLength]
  split
  · rfl
  · rw [itemsFrom_of_le hindex]
    change (match (lines.drop (index + 1)).findIdx? (occursIn closing) with
      | some offset => Except.ok (index + offset + 2)
      | none => Except.ok lines.length) = _
    cases (lines.drop (index + 1)).findIdx? (occursIn closing) with
    | some offset => rfl
    | none =>
        refine congrArg Except.ok ?_
        change lines.length = index + ((lines.drop (index + 1)).length + 1)
        rw [List.length_drop]
        omega

theorem docstringAt_eq (hindex : index < lines.length) (htrim : trimStart line = line) :
    docstringAt lines index line
      = Except.ok ((docstringAt? line (lines.drop (index + 1))).map
        fun opened => (opened.1, index + opened.2)) := by
  rw [docstringAt, docstringAt?]
  cases hquote : docstringQuote? line with
  | none => rfl
  | some quote =>
      have hstart : startsWith (trimStart line) quote = true := List.find?_some hquote
      rw [htrim] at hstart
      obtain ⟨rest, rfl⟩ := startsWith_iff.1 hstart
      simp only [dropBytes_append, Option.map_some, List.drop_left]
      change (closingLine lines index rest quote).bind _ = _
      rw [closingLine_eq hindex]
      rfl

/-- What a line opens is told by an index as by the lines that follow. -/
theorem segmentAt_eq (language : Language) (seen : Bool) (hindex : index < lines.length)
    (htrim : trimStart line = line) :
    segmentAt language lines seen index line
      = Except.ok ((segmentAt? language seen line (lines.drop (index + 1))).map
        fun opened => (opened.1, index + opened.2)) := by
  have hdocstring : (if language.docstrings && !seen then docstringAt lines index line
        else return none)
      = Except.ok ((if language.docstrings && !seen then
          docstringAt? line (lines.drop (index + 1)) else none).map
        fun opened => (opened.1, index + opened.2)) := by
    split
    · exact docstringAt_eq hindex htrim
    · rfl
  rw [segmentAt, segmentAt?, hdocstring]
  cases language.comments with
  | line opening =>
      simp only [commentAt?]
      split
      · rfl
      · rfl
  | block opening closing =>
      simp only [commentAt?]
      cases dropLeading? opening line with
      | none => rfl
      | some afterOpening =>
          simp only [Option.map_some, Option.some_or]
          rw [closingLine_eq hindex]
          rfl

/-- A line is passed over for what trimming leaves of it. -/
theorem isPassed_trim (line : Text) :
    ((trim line).isEmpty || isEncodingPragma (trim line)) = isPassed line := by
  have hoccurs : ∀ {piece : Text}, (∀ c ∈ piece, isSpace c = false) → piece ≠ [] →
      occursIn piece (trim line) = occursIn piece (trimStart line) := by
    intro piece hsolid hne
    rw [Bool.eq_iff_iff, occursIn_iff, occursIn_iff, trim, infix_trimEnd_iff hsolid hne]
  have hblank : (trim line).isEmpty = isBlank line := by
    rw [Bool.eq_iff_iff, List.isEmpty_iff, isBlank_iff_trim_eq_nil]
  have hstart : startsWith (trim line) "#" = startsWith (trimStart line) "#" :=
    startsWith_trimEnd (solid_of_all rfl) _
  rw [isPassed, hblank, isEncodingPragma, isEncodingPragma, trimStart_trim, hstart,
    hoccurs (solid_of_all rfl) (by decide), hoccurs (solid_of_all rfl) (by decide)]

/-- Behind a block are the lines that are left behind its first line, less those of the block. -/
theorem drop_add_of_pos {count : Nat} (h : 0 < count) (index : Nat) (lines : List Text) :
    lines.drop (index + count) = (lines.drop (index + 1)).drop (count - 1) := by
  rw [List.drop_drop]
  congr 1
  omega

/-- **The scan over the indices** finds the segments of the lines that are left. -/
theorem segmentsAt_eq (language : Language) (lines : List Text) (seen : Bool) (index : Nat)
    (rest : List Text) (hrest : lines.drop index = rest) :
    segmentsAt language lines seen index = Except.ok (segmentsFrom language seen index rest) := by
  induction seen, index, rest using scan_induction language with
  | nil seen index =>
      rw [segmentsAt, dif_neg (Nat.not_lt.2 (List.drop_eq_nil_iff.1 hrest)), segmentsFrom_nil]
      rfl
  | passed seen index line following hpassed ih =>
      obtain ⟨hget, hfollowing⟩ := getElem?_of_drop_eq_cons hrest
      rw [segmentsAt, dif_pos (List.getElem?_eq_some_iff.1 hget).1, itemAt_of_getElem? hget,
        segmentsFrom_of_isPassed hpassed, ← ih hfollowing]
      refine if_pos ?_
      rw [isPassed_trim, hpassed]
  | code seen index line following hpassed hnone =>
      obtain ⟨hget, rfl⟩ := getElem?_of_drop_eq_cons hrest
      have hindex := (List.getElem?_eq_some_iff.1 hget).1
      rw [segmentsAt, dif_pos hindex, itemAt_of_getElem? hget, segmentsFrom_of_code hpassed hnone]
      refine (if_neg ?_).trans ?_
      · rw [isPassed_trim, hpassed]
        exact Bool.false_ne_true
      · rw [segmentAt_eq language seen hindex (trimStart_trim line), hnone]
        rfl
  | opening seen index line following marker count hpassed hsome ih =>
      obtain ⟨hget, rfl⟩ := getElem?_of_drop_eq_cons hrest
      have hindex := (List.getElem?_eq_some_iff.1 hget).1
      obtain ⟨hpos, -⟩ := count_of_segmentAt? hsome
      have hdrop := drop_add_of_pos hpos index lines
      rw [segmentsAt, dif_pos hindex, itemAt_of_getElem? hget,
        segmentsFrom_of_opening hpassed hsome]
      refine (if_neg ?_).trans ?_
      · rw [isPassed_trim, hpassed]
        exact Bool.false_ne_true
      · rw [segmentAt_eq language seen hindex (trimStart_trim line), hsome]
        refine (dif_pos (Nat.lt_add_of_pos_right hpos)).trans ?_
        rw [ih hdrop]
        rfl

/-- **The segments of a file** are found by a scan over the indices of its lines. -/
theorem segments_eq (language : Language) (lines : List Text) :
    segments language lines = Except.ok (Header.segments language lines) :=
  segmentsAt_eq language lines false _ _ rfl

/-- A segment is opened by its first line. -/
theorem exists_of_mem_segmentsFrom (language : Language) (lines : List Text) (seen : Bool)
    (index : Nat) (rest : List Text) (hrest : lines.drop index = rest) :
    ∀ segment ∈ segmentsFrom language seen index rest,
      ∃ line following seen count, lines[segment.lines.start]? = some line
        ∧ segmentAt? language seen (trim line) following = some (segment.marker, count) := by
  induction seen, index, rest using scan_induction language with
  | nil seen index => simp
  | passed seen index line following hpassed ih =>
      rw [segmentsFrom_of_isPassed hpassed]
      exact ih (getElem?_of_drop_eq_cons hrest).2
  | code seen index line following hpassed hnone => simp [segmentsFrom_of_code hpassed hnone]
  | opening seen index line following marker count hpassed hsome ih =>
      obtain ⟨hget, rfl⟩ := getElem?_of_drop_eq_cons hrest
      obtain ⟨hpos, -⟩ := count_of_segmentAt? hsome
      have hdrop := drop_add_of_pos hpos index lines
      intro segment hmem
      rw [segmentsFrom_of_opening hpassed hsome, List.mem_cons] at hmem
      rcases hmem with rfl | hmem
      · exact ⟨line, _, seen, count, hget, hsome⟩
      · exact ih hdrop segment hmem

/-- A block comment begins with the marker that opens it. -/
theorem startsWith_of_block {segment : Segment} (hmem : segment ∈ Header.segments language lines)
    (hblock : segment.marker = Marker.block) (hget : lines[segment.lines.start]? = some line) :
    startsWith (trim line) language.comments.leading = true := by
  obtain ⟨other, following, seen, count, hother, hopens⟩ :=
    exists_of_mem_segmentsFrom language lines false _ _ rfl segment hmem
  obtain rfl := Option.some.inj (hget.symm.trans hother)
  rw [hblock, segmentAt?, Option.or_eq_some_iff] at hopens
  rcases hopens with hcomment | ⟨-, hdocstring⟩
  · cases hc : language.comments with
    | line opening => simp [commentAt?, hc] at hcomment
    | block opening closing =>
        rw [hc, commentAt?, Option.map_eq_some_iff] at hcomment
        obtain ⟨afterOpening, hleading, -⟩ := hcomment
        obtain hleading := dropLeading?_eq_some_iff.1 hleading
        exact startsWith_iff.2 ⟨afterOpening, hleading.symm⟩
  · split at hdocstring
    · simp [docstringAt?] at hdocstring
    · cases hdocstring

end InBytes

end GitHooks
