/-
**Marks in front of a text.**

The markers that open comments and the quotes that open docstrings have no white space and are not
what a shebang or an encoding pragma is known by.  A line that begins with one of them and ends in
no white space is trimmed, is no shebang, and is passed over only for what stands behind the mark.

Main definitions:

* `Header.PlainMark` — marks of that kind;
* `Header.EndsTight` — texts that end in no white space.

Main results:

* `Header.plainMark_of_mem` — the markers of the known languages are such marks;
* `Header.trim_marked`, `Header.not_passed_marked` — lines that begin with one.
-/

import GitHooks.Notice.Search
import GitHooks.Proofs.Header.Segments

set_option relaxedAutoImplicit false
set_option autoImplicit false

namespace GitHooks

namespace Header

open Text

variable {language : Language} {mark text t : Text}

/-! ### Marks -/

/-- A mark that opens a comment and is no part of a shebang or an encoding pragma. -/
structure PlainMark (mark : Text) : Prop where
  ne_nil : mark ≠ []
  solid : ∀ c ∈ mark, isSpace c = false
  shebang : startsWith mark "#!" = false
  coding : occursIn "coding:" mark = false ∧ occursIn "coding=" mark = false

theorem plainMark_iff :
    PlainMark mark ↔ mark ≠ [] ∧ (mark.all fun c => !isSpace c) = true
      ∧ startsWith mark "#!" = false
      ∧ occursIn "coding:" mark = false ∧ occursIn "coding=" mark = false := by
  simp only [List.all_eq_true, Bool.not_eq_true']
  exact ⟨fun h => ⟨h.ne_nil, h.solid, h.shebang, h.coding⟩,
    fun ⟨h₁, h₂, h₃, h₄⟩ => ⟨h₁, h₂, h₃, h₄⟩⟩

instance (mark : Text) : Decidable (PlainMark mark) :=
  decidable_of_iff _ plainMark_iff.symm

/-- What opens the comments of the known languages is a plain mark. -/
theorem plainMark_of_mem (hl : language ∈ Language.all) : PlainMark language.comments.leading := by
  have hall : ∀ language ∈ Language.all, PlainMark language.comments.leading := by decide
  exact hall language hl

theorem plainMark_of_mem_docstringQuotes {quote : Text} (hq : quote ∈ docstringQuotes) :
    PlainMark quote := by
  have hall : ∀ quote ∈ docstringQuotes, PlainMark quote := by decide
  exact hall quote hq

/-- What closes the block comments of the known languages. -/
theorem closing_of_mem (hl : language ∈ Language.all) {opening closing : Text}
    (hc : language.comments = CommentStyle.block opening closing) :
    closing = "*/" ∨ closing = "-->" := by
  have hall : ∀ language ∈ Language.all, ∀ closing ∈ language.comments.trailing?,
      closing = "*/".toList ∨ closing = "-->".toList := by decide
  exact hall language hl closing (by simp [hc])

/-- The languages with docstrings have hash comments. -/
theorem comments_of_docstrings (hl : language ∈ Language.all) (hd : language.docstrings = true) :
    language.comments = CommentStyle.hash := by
  have hall : ∀ language ∈ Language.all, language.docstrings = true →
      language.comments = CommentStyle.hash := by decide
  exact hall language hl hd

/-! ### Marked lines -/

/-- A text whose last character is no white space. -/
def EndsTight (t : Text) : Prop := ∃ u c, t = u ++ [c] ∧ isSpace c = false

theorem EndsTight.append (h : EndsTight t) (u : Text) : EndsTight (u ++ t) := by
  obtain ⟨v, c, rfl, hc⟩ := h
  exact ⟨u ++ v, c, (List.append_assoc ..).symm, hc⟩

theorem EndsTight.trimEnd (h : EndsTight t) : trimEnd t = t := by
  obtain ⟨u, c, rfl, hc⟩ := h
  exact trimEnd_concat hc u

theorem PlainMark.endsTight (hm : PlainMark mark) : EndsTight mark := by
  rcases List.eq_nil_or_concat mark with rfl | ⟨u, c, rfl⟩
  · exact absurd rfl hm.ne_nil
  · exact ⟨u, c, List.concat_eq_append, hm.solid c (by simp)⟩

theorem PlainMark.exists_cons (hm : PlainMark mark) :
    ∃ c rest, mark = c :: rest ∧ isSpace c = false := by
  obtain ⟨c, rest, rfl⟩ := List.exists_cons_of_ne_nil hm.ne_nil
  exact ⟨c, rest, rfl, hm.solid c (List.mem_cons_self ..)⟩

theorem trimStart_marked (hm : PlainMark mark) (text : Text) :
    trimStart (mark ++ text) = mark ++ text := by
  obtain ⟨c, rest, rfl, hc⟩ := hm.exists_cons
  exact trimStart_cons hc _

/-- A mark with a text behind it that ends in no white space is trimmed. -/
theorem trim_marked (hm : PlainMark mark) (ht : EndsTight text) :
    trim (mark ++ text) = mark ++ text ∧ indentation (mark ++ text) = 0
      ∧ isBlank (mark ++ text) = false := by
  refine ⟨?_, ?_, ?_⟩
  · rw [trim, trimStart_marked hm, (ht.append mark).trimEnd]
  · have := indentation_add_length_trimStart (mark ++ text)
    rw [trimStart_marked hm] at this
    omega
  · obtain ⟨c, rest, rfl, hc⟩ := hm.exists_cons
    exact isBlank_append_cons (t := []) hc _

/-- A line of a mark, a space and a text is no shebang, and is passed over only where the text
declares an encoding. -/
theorem not_passed_marked (hm : PlainMark mark) (ht : EndsTight text)
    (hcoding : occursIn "coding:" text = false ∧ occursIn "coding=" text = false) :
    isShebang (mark ++ ' ' :: text) = false ∧ isPassed (mark ++ ' ' :: text) = false := by
  constructor
  · have hs := hm.shebang
    rw [startsWith_eq_false_iff] at hs
    rw [isShebang, startsWith_eq_false_iff, prefix_append_cons_iff (by decide)]
    exact hs
  · have htight : EndsTight (' ' :: text) := ht.append [' ']
    obtain ⟨-, -, hblank⟩ := trim_marked hm htight
    -- a declaration has no space, so it would stand on one side of the space
    have hcolon := occursIn_append_cons (by decide : ' ' ∉ "coding:".toList) mark text
    have hequal := occursIn_append_cons (by decide : ' ' ∉ "coding=".toList) mark text
    rw [hm.coding.1, hcoding.1] at hcolon
    rw [hm.coding.2, hcoding.2] at hequal
    rw [isPassed, hblank, isEncodingPragma, trimStart_marked hm, hcolon, hequal]
    simp

/-- What a line with a quote in front is known by. -/
theorem startsWith_quote {quote : Text} (hq : quote ∈ docstringQuotes) (t : Text) :
    isShebang (quote ++ t) = false ∧ startsWith (quote ++ t) "#" = false
      ∧ docstringQuote? (quote ++ t) = some quote := by
  simp only [docstringQuotes, List.mem_cons, List.not_mem_nil, or_false] at hq
  rcases hq with rfl | rfl
  · exact ⟨rfl, rfl, rfl⟩
  · exact ⟨rfl, rfl, rfl⟩

theorem trimStart_quoted {indent quote : Text} (hindent : isBlank indent = true)
    (hq : quote ∈ docstringQuotes) (t : Text) : trimStart (indent ++ quote ++ t) = quote ++ t := by
  rw [List.append_assoc, trimStart_append_of_isBlank hindent]
  exact trimStart_marked (plainMark_of_mem_docstringQuotes hq) t

/-- A line opens a docstring when it consists of white space, a quote and a rest. -/
theorem docstringQuote?_eq_some_iff {line quote : Text} :
    docstringQuote? line = some quote ↔
      quote ∈ docstringQuotes
        ∧ ∃ indent rest, isBlank indent = true ∧ line = indent ++ quote ++ rest := by
  constructor
  · intro h
    obtain ⟨rest, hrest⟩ := startsWith_iff.1 (List.find?_some h)
    refine ⟨List.mem_of_find?_eq_some h, line.takeWhile isSpace, rest, List.all_takeWhile, ?_⟩
    rw [List.append_assoc, hrest, trimStart, List.takeWhile_append_dropWhile]
  · rintro ⟨hq, indent, rest, hindent, rfl⟩
    have hquote := (startsWith_quote hq rest).2.2
    rw [docstringQuote?, trimStart_marked (plainMark_of_mem_docstringQuotes hq)] at hquote
    rw [docstringQuote?, trimStart_quoted hindent hq]
    exact hquote

/-! ### Closing markers -/

theorem dropClosing_append (closing t : Text) (rest : List Text) :
    dropClosing (closing :: rest) (t ++ closing) = t := by
  have h : endsWith (t ++ closing) closing = true := endsWith_iff.2 (List.suffix_append _ _)
  rw [dropClosing, List.find?_cons, h]
  simp

theorem dropClosing_eq_self {closings : List Text}
    (h : ∀ closing ∈ closings, endsWith t closing = false) : dropClosing closings t = t := by
  have hf : closings.find? (endsWith t) = none :=
    List.find?_eq_none.2 fun closing hc => by simp [h closing hc]
  rw [dropClosing, hf]

end Header

end GitHooks
