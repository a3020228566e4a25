/-
**Lines around a year field.**

The markers of the known languages have no digits, and those that a scan looks for inside a line
have a character that no year field has.  So a marker is never found across the boundary of a year
field: another field in its place changes neither what the scan of a header learns from the line
nor where the text of the comment begins and ends.

Main definitions:

* `Header.isForeign` — marks that no year field has a part in;
* `Header.Undated` — comments with such markers.

Main results:

* `Header.alike_of_isYears` — the scan cannot tell one year field from another;
* `Header.commentText_replace` — the text of a comment line with another year field.
-/

import GitHooks.Notice.Search
import GitHooks.Proofs.Header.Alike
import GitHooks.Proofs.Notice.Statement

set_option relaxedAutoImplicit false
set_option autoImplicit false

namespace GitHooks

namespace Header

open Text
open Notice (IsYears isYearChar)

variable {mark years years' : Text}

/-! ### Marks beside a year field -/

/-- Whether a mark has no digit and some character that no year field has. -/
def isForeign (mark : Text) : Bool := isDigitFree mark && mark.any fun c => !isYearChar c

theorem startsWith_around (hm : isDigitFree mark = true) (hy : IsYears years) (t u : Text) :
    startsWith (t ++ years ++ u) mark = startsWith t mark := by
  obtain ⟨d, middle, e, rfl, hd, -, -⟩ := hy
  rw [List.append_assoc, List.cons_append, Bool.eq_iff_iff, startsWith_iff, startsWith_iff,
    prefix_append_cons_iff (not_mem_of_isDigitFree hm hd)]

theorem endsWith_around (hm : isDigitFree mark = true) (hy : IsYears years) (t u : Text) :
    endsWith (t ++ years ++ u) mark = endsWith u mark := by
  obtain ⟨d, middle, e, rfl, -, he, -⟩ := hy
  have ht : t ++ d :: (middle ++ [e]) ++ u = (t ++ d :: middle) ++ e :: u := by simp
  rw [ht, Bool.eq_iff_iff, endsWith_iff, endsWith_iff,
    suffix_append_cons_iff (not_mem_of_isDigitFree hm he)]

theorem occursIn_around (hm : isForeign mark = true) (hy : IsYears years) (t u : Text) :
    occursIn mark (t ++ years ++ u) = (occursIn mark t || occursIn mark u) := by
  obtain ⟨d, middle, e, rfl, hd, he, hmid⟩ := hy
  rw [isForeign, Bool.and_eq_true] at hm
  -- the character of the mark that no year field has keeps it out of the field
  have hn : occursIn mark middle = false := by
    rw [occursIn_eq_false_iff]
    intro hi
    obtain ⟨c, hc, hcy⟩ := List.any_eq_true.1 hm.2
    have := List.all_eq_true.1 hmid c (hi.subset hc)
    simp [this] at hcy
  have ht : t ++ d :: (middle ++ [e]) ++ u = t ++ d :: (middle ++ e :: u) := by simp
  rw [ht, occursIn_append_cons (not_mem_of_isDigitFree hm.1 hd),
    occursIn_append_cons (not_mem_of_isDigitFree hm.1 he), hn, Bool.false_or]

theorem drop_around {n : Nat} {t : Text} (h : n ≤ t.length) (years u : Text) :
    (t ++ years ++ u).drop n = t.drop n ++ years ++ u := by
  rw [List.append_assoc, List.drop_append_of_le_length h, List.append_assoc]

theorem dropLeading?_around (hm : isDigitFree mark = true) (hy : IsYears years) (t u : Text) :
    dropLeading? mark (t ++ years ++ u) = (dropLeading? mark t).map (· ++ years ++ u) := by
  have h := startsWith_around hm hy t u
  rw [startsWith, startsWith] at h
  rw [dropLeading?, dropLeading?, h]
  split
  · next hp =>
    rw [drop_around (List.isPrefixOf_iff_prefix.1 hp).length_le, Option.map_some]
  · rfl

theorem trimStart_around (hy : IsYears years) (t u : Text) :
    trimStart (t ++ years ++ u) = trimStart t ++ years ++ u := by
  obtain ⟨d, middle, e, rfl, hd, -, -⟩ := hy
  rw [List.append_assoc, List.cons_append, trimStart_append_cons (isSpace_of_isDigit hd)]
  simp

theorem trim_around (hy : IsYears years) (t u : Text) :
    trim (t ++ years ++ u) = trimStart t ++ years ++ trimEnd u := by
  rw [trim, trimStart_around hy]
  obtain ⟨d, middle, e, rfl, -, he, -⟩ := hy
  have ht : trimStart t ++ d :: (middle ++ [e]) ++ u = (trimStart t ++ d :: middle) ++ e :: u := by
    simp
  rw [ht, trimEnd_append_cons (isSpace_of_isDigit he)]
  simp

theorem indentation_around (hy : IsYears years) (t u : Text) :
    indentation (t ++ years ++ u) = indentation t := by
  obtain ⟨d, middle, e, rfl, hd, -, -⟩ := hy
  rw [List.append_assoc, List.cons_append, indentation_append_cons (isSpace_of_isDigit hd)]

theorem isBlank_around (hy : IsYears years) (t u : Text) : isBlank (t ++ years ++ u) = false := by
  obtain ⟨d, middle, e, rfl, hd, -, -⟩ := hy
  rw [List.append_assoc, List.cons_append, isBlank_append_cons (isSpace_of_isDigit hd)]

/-! ### Kinds of lines -/

theorem isEncodingPragma_around (hy : IsYears years) (t u : Text) :
    isEncodingPragma (t ++ years ++ u) = (startsWith (trimStart t) "#"
      && (occursIn "coding:" (trimStart t) || occursIn "coding:" u
        || (occursIn "coding=" (trimStart t) || occursIn "coding=" u))) := by
  have hhash := startsWith_around (by decide : isDigitFree "#" = true) hy (trimStart t) u
  have hcolon := occursIn_around (by decide : isForeign "coding:" = true) hy (trimStart t) u
  have hequal := occursIn_around (by decide : isForeign "coding=" = true) hy (trimStart t) u
  rw [isEncodingPragma, trimStart_around hy, hhash, hcolon, hequal]

theorem docstringQuote?_around (hy : IsYears years) (t u : Text) :
    docstringQuote? (t ++ years ++ u) = docstringQuote? t := by
  have hdouble := startsWith_around (by decide : isDigitFree "\"\"\"" = true) hy (trimStart t) u
  have hsingle := startsWith_around (by decide : isDigitFree "'''" = true) hy (trimStart t) u
  rw [docstringQuote?, docstringQuote?, trimStart_around hy]
  simp only [docstringQuotes, List.find?_cons, List.find?_nil, hdouble, hsingle]

theorem length_le_of_docstringQuote? {t quote : Text} (h : docstringQuote? t = some quote) :
    quote.length ≤ t.length := by
  have hs := List.find?_some h
  rw [startsWith_iff] at hs
  exact Nat.le_trans hs.length_le (List.dropWhile_suffix isSpace).length_le

/-! ### What the scan learns -/

/-- Comments whose markers are not found across the boundary of a year field. -/
structure Undated (comments : CommentStyle) : Prop where
  leading : isDigitFree comments.leading = true
  trailing : ∀ closing ∈ comments.trailing?, isForeign closing = true

/-- The comments of the known languages are such. -/
theorem undated_of_mem {language : Language} (h : language ∈ Language.all) :
    Undated language.comments := by
  have hall : ∀ language ∈ Language.all, isDigitFree language.comments.leading = true
      ∧ language.comments.trailing?.all isForeign = true := by decide
  obtain ⟨hl, ht⟩ := hall language h
  refine ⟨hl, fun closing hc => ?_⟩
  rw [Option.mem_def] at hc
  simpa [hc] using ht

theorem isForeign_of_mem_docstringQuotes {quote : Text} (h : quote ∈ docstringQuotes) :
    isForeign quote = true := by
  have hall : ∀ quote ∈ docstringQuotes, isForeign quote = true := by decide
  exact hall quote h

variable {language : Language}

theorem isForeign_of_mem_closers (hu : Undated language.comments) {closing : Text}
    (h : closing ∈ closers language) : isForeign closing = true := by
  rcases List.mem_append.1 h with h | h
  · exact hu.trailing closing (Option.mem_toList.1 h)
  · exact isForeign_of_mem_docstringQuotes h

theorem blockLength_around {closing : Text} (hc : isForeign closing = true) (hy : IsYears years)
    (hy' : IsYears years') (t u : Text) (following : List Text) :
    blockLength closing (t ++ years ++ u) following
      = blockLength closing (t ++ years' ++ u) following := by
  rw [blockLength, blockLength, occursIn_around hc hy, occursIn_around hc hy']

theorem segmentAt?_around (hu : Undated language.comments) (hy : IsYears years)
    (hy' : IsYears years') (seen : Bool) (t u : Text) (following : List Text) :
    segmentAt? language seen (t ++ years ++ u) following
      = segmentAt? language seen (t ++ years' ++ u) following := by
  -- a year field decides neither what is opened nor where the block ends
  have hc : commentAt? language.comments (t ++ years ++ u) following
      = commentAt? language.comments (t ++ years' ++ u) following := by
    obtain ⟨hl, ht⟩ := hu
    cases hs : language.comments with
    | line opening =>
        rw [hs, CommentStyle.leading_line] at hl
        simp only [commentAt?, startsWith_around hl hy, startsWith_around hl hy']
    | block opening closing =>
        rw [hs] at ht
        rw [hs, CommentStyle.leading_block] at hl
        simp only [commentAt?]
        rw [dropLeading?_around hl hy, dropLeading?_around hl hy', Option.map_map, Option.map_map]
        congr 1
        funext rest
        simp only [Function.comp_apply]
        rw [blockLength_around (ht closing rfl) hy hy']
  have hd : docstringAt? (t ++ years ++ u) following
      = docstringAt? (t ++ years' ++ u) following := by
    rw [docstringAt?, docstringAt?, docstringQuote?_around hy, docstringQuote?_around hy']
    cases hq : docstringQuote? t with
    | none => rfl
    | some quote =>
        have hle := length_le_of_docstringQuote? hq
        have hquote := isForeign_of_mem_docstringQuotes (List.mem_of_find?_eq_some hq)
        rw [Option.map_some, Option.map_some, drop_around hle, drop_around hle,
          blockLength_around hquote hy hy']
  rw [segmentAt?, segmentAt?, hc, hd]

/-- **The scan cannot tell one year field from another.** -/
theorem alike_of_isYears (hu : Undated language.comments) (hy : IsYears years)
    (hy' : IsYears years') (t u : Text) :
    Alike language (t ++ years ++ u) (t ++ years' ++ u) where
  shebang := by
    have hm : isDigitFree "#!" = true := by decide
    rw [isShebang, isShebang, startsWith_around hm hy, startsWith_around hm hy']
  passed := by
    rw [isPassed, isPassed, isBlank_around hy, isBlank_around hy', isEncodingPragma_around hy,
      isEncodingPragma_around hy']
  closes := fun closing hc => by
    have hm := isForeign_of_mem_closers hu hc
    rw [occursIn_around hm hy, occursIn_around hm hy']
  opens := fun seen following => by
    rw [trim_around hy, trim_around hy', segmentAt?_around hu hy hy']

/-! ### The text of a comment line -/

variable {comments : CommentStyle} {marker : Marker} {first : Bool}

theorem lineOpeningLength_around {opening : Text} (ho : isDigitFree opening = true)
    (hy : IsYears years) (t u : Text) :
    lineOpeningLength opening (t ++ years ++ u) = lineOpeningLength opening t := by
  rw [lineOpeningLength, lineOpeningLength, startsWith_around ho hy]
  split
  · next hs =>
    have hd := drop_around (startsWith_iff.1 hs).length_le years u
    have hbang := startsWith_around (by decide : isDigitFree "!" = true) hy
      (t.drop opening.length) u
    have hslash := startsWith_around (by decide : isDigitFree "/" = true) hy
      (t.drop opening.length) u
    simp only [hd, hbang, hslash]
  · rfl

theorem blockOpeningLength_around (hy : IsYears years) {opening t : Text}
    (ho : (if first then opening.length else 0) ≤ t.length) (u : Text) :
    blockOpeningLength opening first (t ++ years ++ u) = blockOpeningLength opening first t := by
  rw [blockOpeningLength, blockOpeningLength]
  generalize (if first = true then opening.length else 0) = n at ho
  have hd := drop_around ho years u
  have hclosing := startsWith_around (by decide : isDigitFree "*/" = true) hy (t.drop n) u
  have hstars : (t.drop n ++ years ++ u).takeWhile (· == '*')
      = (t.drop n).takeWhile (· == '*') := by
    obtain ⟨d, middle, e, rfl, hdigit, -, -⟩ := hy
    have hne : (d == '*') = false := by
      rw [beq_eq_false_iff_ne]
      rintro rfl
      simp at hdigit
    rw [List.append_assoc, List.cons_append, takeWhile_append_cons (p := (· == '*')) hne]
  simp only [hd, hclosing, hstars]

theorem le_blockOpeningLength (opening : Text) (first : Bool) (core : Text) :
    (if first then opening.length else 0) ≤ blockOpeningLength opening first core := by
  rw [blockOpeningLength]
  generalize (if first = true then opening.length else 0) = n
  split
  · exact Nat.le_refl n
  · exact Nat.le_add_right n _

/-- A line of a comment has the same opening with another year field behind it. -/
theorem openingLength_around (hu : Undated comments) (hy : IsYears years) (hy' : IsYears years')
    {t u : Text} (hle : openingLength comments marker first (t ++ years ++ u) ≤ t.length)
    (u' : Text) : openingLength comments marker first (t ++ years' ++ u')
      = openingLength comments marker first (t ++ years ++ u) := by
  have hdoc : docstringOpeningLength first (t ++ years' ++ u')
      = docstringOpeningLength first (t ++ years ++ u) := by
    rw [docstringOpeningLength, docstringOpeningLength, docstringQuote?_around hy,
      docstringQuote?_around hy']
  -- the text that differs comes into the length only where the opening reaches it
  have hblock : ∀ opening, blockOpeningLength opening first (t ++ years ++ u) ≤ t.length →
      blockOpeningLength opening first (t ++ years' ++ u')
        = blockOpeningLength opening first (t ++ years ++ u) := by
    intro opening hb
    have ho := Nat.le_trans (le_blockOpeningLength opening first _) hb
    rw [blockOpeningLength_around hy ho, blockOpeningLength_around hy' ho]
  have hl := hu.leading
  cases marker with
  | line =>
      cases comments with
      | line opening =>
          exact (lineOpeningLength_around hl hy' _ _).trans
            (lineOpeningLength_around hl hy _ _).symm
      | block opening closing => rfl
  | block =>
      cases comments with
      | line opening => exact hblock _ hle
      | block opening closing => exact hblock _ hle
  | docstring => cases comments <;> exact hdoc

theorem dropClosing_around {closings : List Text}
    (hc : ∀ closing ∈ closings, isDigitFree closing = true) (hy : IsYears years) (t u : Text) :
    dropClosing closings (t ++ years ++ u) = t ++ years ++ dropClosing closings u := by
  have hf : closings.find? (endsWith (t ++ years ++ u)) = closings.find? (endsWith u) := by
    induction closings with
    | nil => rfl
    | cons closing closings ih =>
        rw [List.find?_cons, List.find?_cons, endsWith_around (hc _ (List.mem_cons_self ..)) hy,
          ih fun c hm => hc c (List.mem_cons_of_mem _ hm)]
  rw [dropClosing, dropClosing, hf]
  cases hq : closings.find? (endsWith u) with
  | none => rfl
  | some closing =>
      have hle := (endsWith_iff.1 (List.find?_some hq)).length_le
      have hlen : (t ++ years ++ u).length - closing.length
          = (t ++ years).length + (u.length - closing.length) := by
        simp only [List.length_append] at *
        omega
      dsimp only
      rw [hlen, List.take_length_add_append]

theorem exists_dropClosing_append (closings : List Text) (t : Text) :
    ∃ rest, t = dropClosing closings t ++ rest := by
  unfold dropClosing
  split
  · exact ⟨_, (List.take_append_drop _ _).symm⟩
  · exact ⟨[], by simp⟩

theorem isDigitFree_of_mem_closings (hu : Undated comments) {closing : Text}
    (h : closing ∈ closings comments marker) : isDigitFree closing = true := by
  have hf : isForeign closing = true := by
    cases marker with
    | line => simp [closings] at h
    | block => exact hu.trailing closing (Option.mem_toList.1 h)
    | docstring => exact isForeign_of_mem_docstringQuotes h
  rw [isForeign, Bool.and_eq_true] at hf
  exact hf.1

/-- The text of a comment line around a year field that its opening does not reach. -/
theorem commentText_around (hu : Undated comments) (hy : IsYears years) {t u : Text}
    (hle : openingLength comments marker first (trim (t ++ years ++ u)) ≤ (trimStart t).length) :
    commentText comments marker first (t ++ years ++ u)
      = (indentation t + openingLength comments marker first (trim (t ++ years ++ u)),
        (trimStart t).drop (openingLength comments marker first (trim (t ++ years ++ u))) ++ years
          ++ dropClosing (closings comments marker) (trimEnd u)) := by
  rw [commentText, indentation_around hy]
  congr 1
  rw [trim_around hy] at hle ⊢
  rw [drop_around hle, dropClosing_around (fun _ h => isDigitFree_of_mem_closings hu h) hy]

/-- The text of a comment line stands in the line, at the position given with it. -/
theorem exists_of_commentText {line text : Text} {offset : Nat}
    (h : commentText comments marker first line = (offset, text)) (ht : text ≠ []) :
    ∃ lead tail, line = lead ++ text ++ tail ∧ lead.length = offset := by
  rw [commentText, Prod.mk.injEq] at h
  obtain ⟨rfl, rfl⟩ := h
  obtain ⟨blank, back, hblank, -, -, hline⟩ := exists_trim_append line
  generalize openingLength comments marker first (trim line) = n at *
  obtain ⟨rest, hrest⟩ := exists_dropClosing_append (closings comments marker) ((trim line).drop n)
  have hpos := congrArg List.length hrest
  have htpos := List.length_pos_of_ne_nil ht
  rw [List.length_append, List.length_drop] at hpos
  refine ⟨blank ++ (trim line).take n, rest ++ back, ?_, ?_⟩
  · rw [List.append_assoc, List.append_assoc, ← List.append_assoc _ rest, ← hrest,
      ← List.append_assoc _ _ back, List.take_append_drop, ← List.append_assoc]
    exact hline
  · rw [List.length_append, hblank, List.length_take]
    omega

/-- **The text of a comment line with another year field** begins at the same position, and only
the year field differs. -/
theorem commentText_replace (hu : Undated comments) {line front after : Text} {offset : Nat}
    (h : commentText comments marker first line = (offset, front ++ years ++ after))
    (hf : front ≠ []) (hy : IsYears years) :
    ∃ t u, line = t ++ years ++ u ∧ t.length = offset + front.length
      ∧ ∀ years', IsYears years' →
        commentText comments marker first (t ++ years' ++ u)
          = (offset, front ++ years' ++ after) := by
  obtain ⟨lead, tail, hline, hlead⟩ := exists_of_commentText h (by simp [hf])
  obtain ⟨t, ht⟩ : ∃ t, t = lead ++ front := ⟨_, rfl⟩
  obtain ⟨u, hu'⟩ : ∃ u, u = after ++ tail := ⟨_, rfl⟩
  obtain rfl : line = t ++ years ++ u := by simp [hline, ht, hu']
  have htlen : t.length = offset + front.length := by rw [ht, List.length_append, hlead]
  -- what the opening takes of the line stands in front of the years
  have hoff := congrArg Prod.fst h
  have hsum := indentation_add_length_trimStart t
  simp only [commentText, indentation_around hy] at hoff
  have hlen : (trimStart t).length
      = openingLength comments marker first (trim (t ++ years ++ u)) + front.length := by omega
  have hle : openingLength comments marker first (trim (t ++ years ++ u))
      ≤ (trimStart t).length := by omega
  have hround := commentText_around hu hy hle
  rw [h, Prod.mk.injEq, hoff, List.append_assoc, List.append_assoc] at hround
  obtain ⟨hfront, hafter⟩ := List.append_inj hround.2 (by rw [List.length_drop]; omega)
  rw [List.append_cancel_left_eq] at hafter
  refine ⟨t, u, rfl, htlen, fun years' hy' => ?_⟩
  have hopen : openingLength comments marker first (trim (t ++ years' ++ u))
      = openingLength comments marker first (trim (t ++ years ++ u)) := by
    rw [trim_around hy] at hle ⊢
    rw [trim_around hy', openingLength_around hu hy hy' hle]
  rw [commentText_around hu hy' (by rw [hopen]; exact hle), hopen, hoff, ← hfront, ← hafter]

end Header

end GitHooks
