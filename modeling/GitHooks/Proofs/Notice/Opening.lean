/-
**Lines that open a segment.**

The first line of what is added to a file opens a segment whatever follows it: a line comment, a
block comment or a docstring.  Without the markers it is the wording of the notice.  So behind a
preamble it is the first line that the search for a notice reads, and the notice it finds.

Main definitions:

* `Notice.OpensWith` — a line that opens a segment, with the text it is read as.

Main results:

* `Notice.find_of_opensWith` — a text behind a preamble that begins with the line of a notice;
* `Notice.opensWith_line`, `Notice.opensWith_block`, `Notice.opensWith_docstring` — the standard
  wording in markers.
-/

import GitHooks.Proofs.Header.Marks
import GitHooks.Proofs.Header.Preamble
import GitHooks.Proofs.Notice.Update
import GitHooks.Proofs.Notice.Wording

set_option relaxedAutoImplicit false
set_option autoImplicit false

namespace GitHooks

namespace Notice

open Text
open Header

variable {language : Language} {lines : List Text} {head text : Text} {marker : Marker}
  {offset : Nat} {mark name years : Text}

/-! ### The first line of a segment -/

/-- A line that opens a segment whatever follows it, with the text it is read as there. -/
structure OpensWith (language : Language) (head : Text) (marker : Marker) (offset : Nat)
    (text : Text) : Prop where
  shebang : isShebang head = false
  passed : isPassed head = false
  opens : ∀ following, ∃ count,
    segmentAt? language false (trim head) following = some (marker, count)
  reads : commentText language.comments marker true head = (offset, text)

theorem visitsIn_cons {segment : Segment} (hget : lines[segment.lines.start]? = some head)
    (h : segment.lines.start < segment.lines.stop) :
    ∃ rest, visitsIn lines segment = ⟨segment, head, segment.lines.start⟩ :: rest := by
  obtain ⟨k, hk⟩ : ∃ k, segment.lines.stop - segment.lines.start = k + 1 :=
    ⟨segment.lines.stop - segment.lines.start - 1, by omega⟩
  obtain ⟨hlt, hhead⟩ := List.getElem?_eq_some_iff.1 hget
  have hdrop : lines.zipIdx.drop segment.lines.start
      = (head, segment.lines.start) :: lines.zipIdx.drop (segment.lines.start + 1) := by
    rw [List.drop_eq_getElem_cons (by simpa using hlt)]
    simp [hhead]
  rw [visitsIn, Span.slice, hdrop, hk, List.take_succ_cons]
  exact ⟨_, rfl⟩

/-- **A text behind a preamble that begins with the line of a notice** has that notice, and no
remark is made before it. -/
theorem find_of_opensWith (h : OpensWith language head marker offset text)
    {statement : Statement} (hst : statement? text = some statement)
    (hy : statement.endYear = none) (lines more : List Text) :
    ∃ stop, find language (preambleOf lines ++ head :: more)
      = ⟨some (statement.toNotice ⟨⟨(preambleOf lines).length, stop⟩, marker⟩ offset
          (preambleOf lines).length), []⟩ := by
  obtain ⟨count, hc⟩ := h.opens more
  have hpos := (count_of_segmentAt? hc).1
  have hsegments : segments language (preambleOf lines ++ head :: more) = _ :=
    segments_preambleOf language fun _ => h.shebang
  -- so the first segment begins behind the preamble, and its first line is the first that is read
  rw [segmentsFrom_of_opening h.passed hc] at hsegments
  generalize hn : (preambleOf lines).length = n at hsegments
  have hget : (preambleOf lines ++ head :: more)[n]? = some head := by
    rw [List.getElem?_append_right (by omega), ← hn, Nat.sub_self]
    rfl
  obtain ⟨rest, hrest⟩ : ∃ rest, visitsIn (preambleOf lines ++ head :: more)
      ⟨⟨n, n + count⟩, marker⟩ = ⟨⟨⟨n, n + count⟩, marker⟩, head, n⟩ :: rest :=
    visitsIn_cons hget (by simpa)
  obtain ⟨back, hback⟩ : ∃ back, visits language (preambleOf lines ++ head :: more)
      = ⟨⟨⟨n, n + count⟩, marker⟩, head, n⟩ :: back := by
    rw [visits, hsegments, List.flatMap_cons, hrest]
    exact ⟨_, rfl⟩
  refine ⟨n + count, find_eq_some_iff.2 ⟨[], _, back, hback, ?_, by simp, rfl⟩⟩
  refine readLine_eq_some_iff.2 ⟨offset, text, statement, ?_, hst, ?_, rfl⟩
  · simpa using h.reads
  · intro endYear he
    rw [hy] at he
    simp at he

/-! ### What the wording does and does not have -/

/-- The standard wording does not have what would end a comment or make a line a pragma. -/
theorem occursIn_wording {piece : Text} (hf : isForeign piece = true) (hs : ' ' ∉ piece)
    (hlead : occursIn piece standardLead = false) (hname : occursIn piece name = false)
    (hy : IsYears years) : occursIn piece (wording years name) = false := by
  have hspace : occursIn piece (' ' :: name) = false := by
    have hnil : occursIn piece [] = false := by
      cases piece with
      | nil => simp [isForeign] at hf
      | cons c piece => rfl
    rw [← List.nil_append (' ' :: name), occursIn_append_cons hs, hnil, hname]
    rfl
  rw [wording, occursIn_around hf hy, hlead, hspace]
  rfl

theorem PlainName.endsTight_wording (hN : PlainName name) (years : Text) :
    EndsTight (wording years name) := by
  obtain ⟨u, c, hu, hc, -⟩ := hN.exists_concat
  have hname : EndsTight name := ⟨u, c, hu, hc⟩
  exact (hname.append [' ']).append (standardLead ++ years)

theorem coding_wording (hN : PlainName name) (hy : IsYears years) :
    occursIn "coding:" (wording years name) = false
      ∧ occursIn "coding=" (wording years name) = false :=
  ⟨occursIn_wording (by decide) (by decide) (by decide) hN.coding.1 hy,
    occursIn_wording (by decide) (by decide) (by decide) hN.coding.2 hy⟩

/-- The wording of a notice does not have what closes a block comment. -/
theorem closing_wording (hl : language ∈ Language.all) {opening closing : Text}
    (hc : language.comments = CommentStyle.block opening closing) (hN : PlainName name)
    (hy : IsYears years) :
    PlainMark closing ∧ ' ' ∉ closing ∧ occursIn closing (wording years name) = false := by
  rcases closing_of_mem hl hc with rfl | rfl
  · exact ⟨by decide, by decide,
      occursIn_wording (by decide) (by decide) (by decide) hN.closing.1 hy⟩
  · exact ⟨by decide, by decide,
      occursIn_wording (by decide) (by decide) (by decide) hN.closing.2 hy⟩

theorem endsWith_wording_quote (hN : PlainName name) (hy : IsYears years) {quote : Text}
    (hq : quote ∈ docstringQuotes) : endsWith (wording years name) quote = false := by
  have hall : ∀ quote ∈ docstringQuotes,
      isForeign quote = true ∧ ' ' ∉ quote ∧ occursIn quote standardLead = false := by decide
  obtain ⟨hf, hs, hlead⟩ := hall quote hq
  have hn := occursIn_wording hf hs hlead (hN.quotes quote hq) hy
  rw [occursIn_eq_false_iff] at hn
  rw [endsWith_eq_false_iff]
  exact fun h => hn h.isInfix

/-! ### The wording in markers -/

theorem opensWith_line (hl : language ∈ Language.all)
    (hc : language.comments = CommentStyle.line mark) (hN : PlainName name) (hy : IsYears years) :
    OpensWith language (mark ++ ' ' :: wording years name) Marker.line mark.length
      (' ' :: wording years name) := by
  have hm := plainMark_of_mem hl
  rw [hc, CommentStyle.leading_line] at hm
  have htight := hN.endsTight_wording years
  have hspaced : EndsTight (' ' :: wording years name) := htight.append [' ']
  obtain ⟨htrim, hindent, -⟩ := trim_marked hm hspaced
  obtain ⟨hshebang, hpassed⟩ := not_passed_marked hm htight (coding_wording hN hy)
  have hstarts : startsWith (mark ++ ' ' :: wording years name) mark = true :=
    startsWith_iff.2 (List.prefix_append _ _)
  refine ⟨hshebang, hpassed, fun following => ⟨1, ?_⟩, ?_⟩
  · rw [htrim, segmentAt?, hc, commentAt?, hstarts, if_pos rfl, Option.some_or]
  · -- the space behind the marker keeps it from being the mark of a documentation comment
    have hopen : lineOpeningLength mark (mark ++ ' ' :: wording years name) = mark.length := by
      have hbang : startsWith (' ' :: wording years name) "!" = false := rfl
      have hslash : startsWith (' ' :: wording years name) "/" = false := rfl
      rw [lineOpeningLength, hstarts, if_pos rfl, List.drop_left]
      simp only [hbang, hslash, Bool.false_eq_true, or_self, and_false, if_false]
    rw [commentText, htrim, hc]
    simp only [openingLength, hopen, hindent, closings, List.drop_left, Nat.zero_add]
    rfl

theorem opensWith_block (hl : language ∈ Language.all) {closing : Text}
    (hc : language.comments = CommentStyle.block mark closing) (hN : PlainName name)
    (hy : IsYears years) :
    OpensWith language (mark ++ ' ' :: (wording years name ++ ' ' :: closing)) Marker.block
      mark.length (' ' :: (wording years name ++ [' '])) := by
  have hm := plainMark_of_mem hl
  rw [hc, CommentStyle.leading_block] at hm
  obtain ⟨hclosing, -, -⟩ := closing_wording hl hc hN hy
  have htight : EndsTight (wording years name ++ ' ' :: closing) :=
    (hclosing.endsTight.append [' ']).append (wording years name)
  have hspaced : EndsTight (' ' :: (wording years name ++ ' ' :: closing)) := htight.append [' ']
  obtain ⟨htrim, hindent, -⟩ := trim_marked hm hspaced
  -- a declaration has no space, so it would stand in the wording or in the closing marker
  have hcoding : occursIn "coding:" (wording years name ++ ' ' :: closing) = false
      ∧ occursIn "coding=" (wording years name ++ ' ' :: closing) = false := by
    obtain ⟨hcolon, hequal⟩ := coding_wording hN hy
    rw [occursIn_append_cons (by decide), occursIn_append_cons (by decide), hcolon, hequal,
      hclosing.coding.1, hclosing.coding.2]
    exact ⟨rfl, rfl⟩
  obtain ⟨hshebang, hpassed⟩ := not_passed_marked hm htight hcoding
  refine ⟨hshebang, hpassed, fun following => ?_, ?_⟩
  · rw [htrim, segmentAt?, hc, commentAt?, dropLeading?_append, Option.map_some, Option.some_or]
    exact ⟨_, rfl⟩
  · have hopen : blockOpeningLength mark true
        (mark ++ ' ' :: (wording years name ++ ' ' :: closing)) = mark.length := by
      have hstar : startsWith (' ' :: (wording years name ++ ' ' :: closing)) "*/" = false := rfl
      rw [blockOpeningLength]
      simp only [if_true, List.drop_left, hstar, Bool.false_eq_true, if_false]
      simp
    have hclose : dropClosing [closing] (' ' :: (wording years name ++ ' ' :: closing))
        = ' ' :: (wording years name ++ [' ']) := by
      have ht : ' ' :: (wording years name ++ ' ' :: closing)
          = ' ' :: (wording years name ++ [' ']) ++ closing := by simp
      rw [ht, dropClosing_append]
    rw [commentText, htrim, hc]
    simp only [openingLength, hopen, hindent, closings, List.drop_left, Nat.zero_add]
    exact congrArg _ hclose

theorem opensWith_docstring (hl : language ∈ Language.all) (hd : language.docstrings = true)
    (hN : PlainName name) (hy : IsYears years) {quote back : Text} (hq : quote ∈ docstringQuotes)
    (hb : back = [] ∨ back = "\"\"\"") :
    OpensWith language (quote ++ (wording years name ++ back)) Marker.docstring quote.length
      (wording years name) := by
  have hc := comments_of_docstrings hl hd
  have hm := plainMark_of_mem_docstringQuotes hq
  have htight : EndsTight (wording years name ++ back) := by
    rcases hb with rfl | rfl
    · rw [List.append_nil]
      exact hN.endsTight_wording years
    · exact (plainMark_of_mem_docstringQuotes (List.mem_cons_self ..)).endsTight.append _
  have hstart := trimStart_marked hm (wording years name ++ back)
  obtain ⟨htrim, hindent, hblank⟩ := trim_marked hm htight
  obtain ⟨hshebang, hhash, hquote⟩ := startsWith_quote hq (wording years name ++ back)
  -- the quote that closes a docstring of one line is the first that is looked for
  have hclose : dropClosing docstringQuotes (wording years name ++ back) = wording years name := by
    rcases hb with rfl | rfl
    · rw [List.append_nil]
      exact dropClosing_eq_self fun quote hq => endsWith_wording_quote hN hy hq
    · exact dropClosing_append _ _ _
  refine ⟨hshebang, ?_, fun following => ?_, ?_⟩
  · rw [isPassed, hblank, isEncodingPragma, hstart, hhash]
    rfl
  · rw [htrim, segmentAt?, hc, hd, CommentStyle.hash]
    simp only [commentAt?, hhash, docstringAt?, hquote]
    exact ⟨_, rfl⟩
  · rw [commentText, htrim, hindent]
    simp only [openingLength, docstringOpeningLength, hquote, Option.map_some, Option.getD_some,
      if_true, closings, Nat.zero_add, List.drop_left, hclose]

end Notice

end GitHooks
