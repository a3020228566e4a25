/-
**Where a docstring begins and ends.**

The first line of a docstring is white space, a quote and a remainder.  From there a search goes on
line by line to the first that holds the quote again, or to the end of the file.  So lines without
the quote only put the end off, and what the search finds is told by the remainder and by the lines
that follow it, wherever these stand.  Behind one docstring no other is looked for.

Main definitions:

* `Header.docstrings` — the lines of the docstrings in the header of a file.

Main results:

* `Header.blockLength_cons`, `Header.blockLength_quiet` — lines that do not close a block put its
  end off;
* `Header.segments_body` — the scan of a file begins with its body;
* `Header.docstrings_of_opening` — the docstring that a line opens is the only one.
-/

import GitHooks.Proofs.Header.Marks
import GitHooks.Proofs.Header.Preamble

set_option relaxedAutoImplicit false
set_option autoImplicit false

namespace GitHooks

namespace Text

variable {piece t blank : Text}

/-- A piece without white space does not reach into the white space behind a text. -/
theorem infix_append_blank_iff (hsolid : ∀ c ∈ piece, isSpace c = false) (hne : piece ≠ [])
    (hblank : isBlank blank = true) : piece <:+: t ++ blank ↔ piece <:+: t := by
  induction blank generalizing t with
  | nil => rw [List.append_nil]
  | cons c blank ih =>
      have hspace : isSpace c = true ∧ isBlank blank = true := by simpa [isBlank] using hblank
      have hc : c ∉ piece := by
        intro hmem
        rw [hsolid c hmem] at hspace
        exact absurd hspace.1 Bool.false_ne_true
      have hnil : ¬ piece <:+: ([] : Text) := fun h => hne (List.eq_nil_of_infix_nil h)
      have hrest : ¬ piece <:+: blank := by
        intro h
        exact hnil ((ih hspace.2).1 h)
      rw [infix_append_cons_iff hc]
      exact or_iff_left hrest

theorem infix_trimEnd_iff (hsolid : ∀ c ∈ piece, isSpace c = false) (hne : piece ≠ []) :
    piece <:+: trimEnd t ↔ piece <:+: t := by
  obtain ⟨blank, hblank, ht⟩ := exists_trimEnd_append t
  have hiff : piece <:+: trimEnd t ++ blank ↔ piece <:+: trimEnd t :=
    infix_append_blank_iff hsolid hne hblank
  rwa [← ht, Iff.comm] at hiff

/-- A piece without white space is in no blank text. -/
theorem occursIn_of_isBlank (hsolid : ∀ c ∈ piece, isSpace c = false) (hne : piece ≠ [])
    (hblank : isBlank t = true) : occursIn piece t = false := by
  rw [occursIn_eq_false_iff, ← infix_trimEnd_iff hsolid hne, trimEnd_eq_nil_iff.2 hblank]
  exact fun h => hne (List.eq_nil_of_infix_nil h)

end Text

namespace Header

open Text
open Notice (bodyOf)

variable {language : Language} {index : Nat} {closing t u quote indent remainder : Text}
  {lines following quiet : List Text}

/-! ### The end of a block -/

/-- Where a block ends is told by whether its first line closes it, and by the lines that follow. -/
theorem blockLength_of_occursIn_eq (h : occursIn closing t = occursIn closing u) :
    blockLength closing t following = blockLength closing u following := by
  rw [blockLength, h, blockLength]

/-- Where a line does not close a block, the search goes on with the next. -/
theorem blockLength_cons (h : occursIn closing t = false) (line : Text) (following : List Text) :
    blockLength closing t (line :: following) = blockLength closing line following + 1 := by
  rw [blockLength, h, if_neg Bool.false_ne_true, List.findIdx?_cons, blockLength]
  cases occursIn closing line with
  | true => rfl
  | false =>
      cases List.findIdx? (occursIn closing) following with
      | none => rfl
      | some offset => rfl

/-- Lines without the closing marker put the end of a block off. -/
theorem blockLength_quiet (h : occursIn closing t = false)
    (hquiet : ∀ line ∈ quiet, occursIn closing line = false) :
    blockLength closing t (quiet ++ following)
      = quiet.length + blockLength closing t following := by
  induction quiet generalizing t with
  | nil => rw [List.nil_append, List.length_nil, Nat.zero_add]
  | cons line quiet ih =>
      have hline := hquiet line List.mem_cons_self
      have hrest := ih hline fun other hother => hquiet other (List.mem_cons_of_mem _ hother)
      rw [List.cons_append, blockLength_cons h, hrest,
        blockLength_of_occursIn_eq (hline.trans h.symm), List.length_cons]
      omega

/-- A block that no line closes runs to the end. -/
theorem blockLength_of_not_closed (h : occursIn closing t = false)
    (hquiet : ∀ line ∈ following, occursIn closing line = false) :
    blockLength closing t following = following.length + 1 := by
  have hend : blockLength closing t [] = 1 := by
    rw [blockLength, h]
    rfl
  have hall : blockLength closing t (following ++ [])
      = following.length + blockLength closing t [] := blockLength_quiet h hquiet
  rwa [List.append_nil, hend] at hall

/-! ### The first line of a docstring -/

theorem isPassed_quoted (hindent : isBlank indent = true) (hq : quote ∈ docstringQuotes)
    (t : Text) : isPassed (indent ++ quote ++ t) = false := by
  obtain ⟨c, rest, hc, hsolid⟩ := (plainMark_of_mem_docstringQuotes hq).exists_cons
  have hblank : isBlank (indent ++ quote ++ t) = false := by
    rw [hc, List.append_assoc, List.cons_append]
    exact isBlank_append_cons hsolid indent _
  have hhash := (startsWith_quote hq t).2.1
  rw [isPassed, hblank, isEncodingPragma, trimStart_quoted hindent hq, hhash]
  rfl

/-- A line with a quote in front opens a docstring, in a language that has them. -/
theorem segmentAt?_quoted (hl : language ∈ Language.all) (hd : language.docstrings = true)
    (hindent : isBlank indent = true) (hq : quote ∈ docstringQuotes) :
    segmentAt? language false (trim (indent ++ quote ++ remainder)) following
      = some (Marker.docstring, blockLength quote remainder following) := by
  have hmark := plainMark_of_mem_docstringQuotes hq
  have htrim : trim (indent ++ quote ++ remainder) = quote ++ trimEnd remainder := by
    obtain ⟨v, c, rfl, hc⟩ := hmark.endsTight
    rw [trim, trimStart_quoted hindent hq, List.append_assoc, List.singleton_append,
      trimEnd_append_cons hc, List.append_assoc, List.singleton_append]
  have hcloses : occursIn quote (trimEnd remainder) = occursIn quote remainder := by
    rw [Bool.eq_iff_iff, occursIn_iff, occursIn_iff,
      infix_trimEnd_iff hmark.solid hmark.ne_nil]
  obtain ⟨-, hhash, hquote⟩ := startsWith_quote hq (trimEnd remainder)
  rw [htrim, segmentAt?, comments_of_docstrings hl hd, hd, CommentStyle.hash]
  simp only [commentAt?, hhash, docstringAt?, hquote, List.drop_left, Bool.false_eq_true, if_false,
    Bool.not_false, Bool.and_self, if_true, Option.none_or, Option.map_some]
  rw [blockLength_of_occursIn_eq hcloses]

/-! ### Docstrings of a file -/

/-- The lines of the docstrings in the header of a file. -/
def docstrings (language : Language) (lines : List Text) : List Span :=
  ((segments language lines).filter (·.marker == Marker.docstring)).map (·.lines)

/-- Behind a docstring the scan finds no other. -/
theorem marker_ne_docstring (language : Language) (seen : Bool) (index : Nat) (lines : List Text)
    (hseen : seen = true) :
    ∀ segment ∈ segmentsFrom language seen index lines, segment.marker ≠ Marker.docstring := by
  induction seen, index, lines using scan_induction language with
  | nil seen index => simp
  | passed seen index line following h ih =>
      rw [segmentsFrom_of_isPassed h]
      exact ih hseen
  | code seen index line following h hs => simp [segmentsFrom_of_code h hs]
  | opening seen index line following marker count h hs ih =>
      subst hseen
      -- once a docstring has been seen, only comments open segments
      have hcomment :
          commentAt? language.comments (trim line) following = some (marker, count) := by
        simpa [segmentAt?] using hs
      have hmarker : marker ≠ Marker.docstring := by
        rintro rfl
        cases hc : language.comments with
        | line opening => simp [commentAt?, hc] at hcomment
        | block opening closing => simp [commentAt?, hc] at hcomment
      intro segment hmem
      rw [segmentsFrom_of_opening h hs, List.mem_cons] at hmem
      rcases hmem with rfl | hmem
      · exact hmarker
      · exact ih rfl segment hmem

/-- **The scan of a file begins with its body**: the preamble and the blank lines behind it are
passed over. -/
theorem segments_body (language : Language) {blanks body : List Text}
    (hparts : lines = lines.take (preambleLength lines) ++ blanks ++ body)
    (hblanks : ∀ line ∈ blanks, isBlank line = true) :
    segments language lines
      = segmentsFrom language false (preambleLength lines + blanks.length) body := by
  have hsegments : segments language (lines.take (preambleLength lines) ++ blanks ++ body)
      = segmentsFrom language false (preambleLength lines + blanks.length) body :=
    segments_take_append language hblanks (congrArg beginsWithShebang hparts.symm)
  rwa [← hparts] at hsegments

/-- **The docstring that a line opens is the only one**, where the scan begins with that line. -/
theorem docstrings_of_opening (hl : language ∈ Language.all) (hd : language.docstrings = true)
    (hindent : isBlank indent = true) (hq : quote ∈ docstringQuotes)
    (hs : segments language lines
      = segmentsFrom language false index ((indent ++ quote ++ remainder) :: following)) :
    docstrings language lines = [⟨index, index + blockLength quote remainder following⟩] := by
  have hrest := marker_ne_docstring language true
    (index + blockLength quote remainder following)
    (following.drop (blockLength quote remainder following - 1)) rfl
  have hnone : (segmentsFrom language true (index + blockLength quote remainder following)
      (following.drop (blockLength quote remainder following - 1))).filter
        (·.marker == Marker.docstring) = [] := by
    rw [List.filter_eq_nil_iff]
    intro segment hmem
    simpa using hrest segment hmem
  rw [docstrings, hs, segmentsFrom_of_opening (isPassed_quoted hindent hq remainder)
    (segmentAt?_quoted hl hd hindent hq), Bool.false_or, beq_self_eq_true,
    List.filter_cons_of_pos rfl, hnone]
  rfl

end Header

end GitHooks
