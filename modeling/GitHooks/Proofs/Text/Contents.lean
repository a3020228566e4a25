/-
**What the lines of a text say.**

A line says what trimming leaves of it, and a blank line says nothing.  White space around a text
changes where its lines begin and end, and how many of them are blank, but not what they say; nor
does it matter whether a line is ended by a line feed alone or with a carriage return before it.  So
a text that is put together from others by line feeds says what they say, one after the other.

Main definitions:

* `Text.IgnoresEnd` — what is read from lines however they end;
* `Text.contents` — the lines that are not blank, trimmed;
* `Text.lastLine` — what stands behind the last line feed of a text.

Main results:

* `Text.line_induction` — a text is one line, or a line in front of another text;
* `Text.IgnoresEnd.flatMap_lines_append_feed`, `Text.contents_lines_append_feed` — texts joined by a
  line feed are read one after the other, and say what the two say;
* `Text.contents_lines_trim` — trimming a text changes nothing.
-/

import GitHooks.Proofs.Text.Split
import GitHooks.Proofs.Text.Trim
import Mathlib.Data.List.DropRight

set_option relaxedAutoImplicit false
set_option autoImplicit false

namespace GitHooks

namespace Text

variable {c : Char} {t u blank : Text}

/-! ### Texts line by line -/

/-- A text is one line, or a line in front of another text. -/
@[elab_as_elim]
theorem line_induction {motive : Text → Prop} (line : ∀ t, '\n' ∉ t → motive t)
    (feed : ∀ u t, '\n' ∉ u → motive t → motive (u ++ '\n' :: t)) (t : Text) : motive t := by
  by_cases h : '\n' ∈ t
  · obtain ⟨u, v, ht, hu⟩ := List.eq_append_cons_of_mem h
    rw [ht]
    exact feed u v hu (line_induction line feed v)
  · exact line t h
termination_by t.length
decreasing_by simp [ht]; omega

theorem splitOn_feed (t : Text) : splitOn ['\n'] ('\n' :: t) = [] :: splitOn ['\n'] t := by
  rw [splitOn, splitFrom, if_pos (by simp [List.isPrefixOf]), splitOn]
  rfl

/-- A line feed divides the pieces before it from those behind it. -/
theorem splitOn_append_feed (u t : Text) :
    splitOn ['\n'] (u ++ '\n' :: t) = splitOn ['\n'] u ++ splitOn ['\n'] t := by
  induction u with
  | nil => exact splitOn_feed t
  | cons c u ih =>
      by_cases hc : c = '\n'
      · subst hc
        rw [List.cons_append, splitOn_feed, splitOn_feed, ih, List.cons_append]
      · obtain ⟨piece, pieces, hpieces⟩ := List.exists_cons_of_ne_nil (splitFrom_ne_nil ['\n'] 0 u)
        have hu : splitOn ['\n'] u = piece :: pieces := hpieces
        rw [List.cons_append, splitOn_cons hc, splitOn_cons hc, ih, hu]
        rfl

/-- A line that does not end with a carriage return is kept as it is. -/
theorem dropReturn_of_not_suffix (h : ¬ ['\r'] <:+ u) : dropReturn u = u := by
  have hnone : dropTrailing? ['\r'] u = none := dropTrailing?_eq_none_iff.2 h
  exact congrArg (fun line => Option.getD line u) hnone

/-- The first line of a text that goes on behind it. -/
theorem lines_append_feed (hu : '\n' ∉ u) (t : Text) :
    lines (u ++ '\n' :: t) = dropReturn u :: lines t := by
  obtain ⟨piece, pieces, hpieces⟩ := List.exists_cons_of_ne_nil (splitFrom_ne_nil ['\n'] 0 t)
  have ht : splitOn ['\n'] t = piece :: pieces := hpieces
  change linesOfPieces (splitOn ['\n'] (u ++ '\n' :: t))
    = dropReturn u :: linesOfPieces (splitOn ['\n'] t)
  rw [splitOn_append_feed, splitOn_of_not_mem hu, ht]
  rfl

/-! ### Trimming between blanks -/

theorem trim_of_isBlank (h : isBlank t = true) : trim t = [] := isBlank_iff_trim_eq_nil.1 h

/-- White space in front of a text is trimmed. -/
theorem trim_append_left (h : isBlank blank = true) (t : Text) : trim (blank ++ t) = trim t := by
  rw [trim, trimStart_append_of_isBlank h, trim]

/-- White space behind a text is trimmed. -/
theorem trim_append_right (h : isBlank blank = true) (t : Text) : trim (t ++ blank) = trim t := by
  cases ht : trimStart t with
  | nil =>
      have hblank : isBlank t = true := by
        rw [isBlank_iff_trim_eq_nil, trim, ht, trimEnd_nil]
      rw [trim_append_left hblank, trim_of_isBlank h, trim_of_isBlank hblank]
  | cons d rest =>
      rw [trim, trimStart_append (by simp [ht]), trimEnd_append_of_isBlank h, trim]

theorem trim_trim (t : Text) : trim (trim t) = trim t := by
  obtain ⟨front, back, -, hfront, hback, ht⟩ := exists_trim_append t
  conv => rhs; rw [ht, trim_append_right hback, trim_append_left hfront]

theorem mem_of_mem_trim (h : c ∈ trim t) : c ∈ t := by
  obtain ⟨front, back, -, -, -, ht⟩ := exists_trim_append t
  rw [ht]
  simp [h]

/-- What a carriage return at the end of a text does not change is not changed by dropping it. -/
theorem apply_dropReturn {α : Type} {f : Text → α} (hf : ∀ u, f (u ++ ['\r']) = f u) (t : Text) :
    f (dropReturn t) = f t := by
  rw [dropReturn]
  cases h : dropTrailing? "\r" t with
  | none => rfl
  | some u =>
      rw [dropTrailing?_eq_some_iff.1 h]
      exact (hf u).symm

theorem trim_dropReturn (t : Text) : trim (dropReturn t) = trim t :=
  apply_dropReturn (fun u => trim_append_right (by decide) u) t

theorem trim_trimEnd (t : Text) : trim (trimEnd t) = trim t := by
  obtain ⟨blank, hblank, hend⟩ := exists_trimEnd_append t
  conv => rhs; rw [hend, trim_append_right hblank]

/-- Trimming begins with the first character that is not white space. -/
theorem head?_trim (t : Text) : (trim t).head? = (trimStart t).head? := by
  rw [trim]
  cases ht : trimStart t with
  | nil => rfl
  | cons c u =>
      have hc : isSpace c = false := isSpace_of_mem_head?_trimStart (by rw [ht]; rfl)
      rw [← List.nil_append (c :: u), trimEnd_append_cons hc]
      rfl

/-! ### Line by line -/

/-- What is read from a line does not depend on white space at its end, and nothing is read from an
empty line. -/
structure IgnoresEnd {α : Type} (read : Text → List α) : Prop where
  nil : read [] = []
  concat : ∀ u c, isSpace c = true → read (u ++ [c]) = read u

section

variable {α : Type} {read : Text → List α}

/-- How lines are ended does not matter to what is read from them. -/
theorem IgnoresEnd.flatMap_lines (h : IgnoresEnd read) (t : Text) :
    (lines t).flatMap read = (splitOn ['\n'] t).flatMap read := by
  change (linesOfPieces (splitOn ['\n'] t)).flatMap read = _
  induction splitOn ['\n'] t with
  | nil => rfl
  | cons piece rest ih =>
      cases rest with
      | nil =>
          cases piece with
          | nil => rw [List.flatMap_singleton, h.nil]; rfl
          | cons c piece => rfl
      | cons next rest =>
          have hreturn : read (dropReturn piece) = read piece :=
            apply_dropReturn (fun u => h.concat u '\r' (by decide)) piece
          rw [linesOfPieces, List.flatMap_cons, ih, hreturn]
          rfl

/-- **Texts joined by a line feed** are read one after the other. -/
theorem IgnoresEnd.flatMap_lines_append_feed (h : IgnoresEnd read) (u t : Text) :
    (lines (u ++ '\n' :: t)).flatMap read = (lines u).flatMap read ++ (lines t).flatMap read := by
  rw [h.flatMap_lines, splitOn_append_feed, List.flatMap_append, h.flatMap_lines, h.flatMap_lines]

theorem IgnoresEnd.flatMap_lines_of_not_mem (h : IgnoresEnd read) (ht : '\n' ∉ t) :
    (lines t).flatMap read = read t := by
  rw [h.flatMap_lines, splitOn_of_not_mem ht, List.flatMap_singleton]

theorem IgnoresEnd.flatMap_lines_concat (h : IgnoresEnd read) (hc : isSpace c = true) (t : Text) :
    (lines (t ++ [c])).flatMap read = (lines t).flatMap read := by
  by_cases hfeed : c = '\n'
  · subst hfeed
    rw [h.flatMap_lines_append_feed, lines_nil, List.flatMap_nil, List.append_nil]
  · induction t using line_induction with
    | line t ht =>
        have hmem : '\n' ∉ t ++ [c] := by simp [ht, Ne.symm hfeed]
        rw [h.flatMap_lines_of_not_mem hmem, h.flatMap_lines_of_not_mem ht, h.concat t c hc]
    | feed u t hu ih =>
        rw [List.append_assoc, List.cons_append, h.flatMap_lines_append_feed, ih,
          h.flatMap_lines_append_feed]

/-- Nothing is read from white space behind a text. -/
theorem IgnoresEnd.flatMap_lines_append_right (h : IgnoresEnd read) (hblank : isBlank blank = true)
    (t : Text) : (lines (t ++ blank)).flatMap read = (lines t).flatMap read := by
  induction blank generalizing t with
  | nil => rw [List.append_nil]
  | cons c blank ih =>
      obtain ⟨hc, hrest⟩ : isSpace c = true ∧ isBlank blank = true := by
        simpa [isBlank] using hblank
      rw [List.append_cons, ih hrest, h.flatMap_lines_concat hc]

end

/-! ### What lines say -/

/-- The lines that are not blank, trimmed. -/
def contents (lines : List Text) : List Text := (lines.map trim).filter (· ≠ [])

@[simp] theorem contents_nil : contents [] = [] := rfl

theorem contents_append (front back : List Text) :
    contents (front ++ back) = contents front ++ contents back := by
  rw [contents, List.map_append, List.filter_append, contents, contents]

theorem contents_cons (line : Text) (rest : List Text) :
    contents (line :: rest) = contents [line] ++ contents rest :=
  contents_append [line] rest

theorem contents_singleton (line : Text) : contents [line] = [trim line].filter (· ≠ []) := rfl

theorem contents_congr (h : trim t = trim u) : contents [t] = contents [u] := by
  rw [contents_singleton, contents_singleton, h]

theorem contents_eq_flatMap (lines : List Text) :
    contents lines = lines.flatMap fun line => contents [line] := by
  induction lines with
  | nil => rfl
  | cons line rest ih => rw [contents_cons, ih, List.flatMap_cons]

theorem ignoresEnd_contents : IgnoresEnd fun line => contents [line] :=
  ⟨rfl, fun u c hc => contents_congr (trim_append_right (by simp [isBlank, hc]) u)⟩

/-- **Texts joined by a line feed** say what the two say. -/
theorem contents_lines_append_feed (u t : Text) :
    contents (lines (u ++ '\n' :: t)) = contents (lines u) ++ contents (lines t) := by
  simp only [contents_eq_flatMap (lines _)]
  exact ignoresEnd_contents.flatMap_lines_append_feed u t

theorem contents_lines_of_not_mem (h : '\n' ∉ t) : contents (lines t) = contents [t] := by
  rw [contents_eq_flatMap]
  exact ignoresEnd_contents.flatMap_lines_of_not_mem h

theorem contents_lines_cons (h : isSpace c = true) (t : Text) :
    contents (lines (c :: t)) = contents (lines t) := by
  by_cases hc : c = '\n'
  · subst hc
    exact contents_lines_append_feed [] t
  · have hline : ∀ u, '\n' ∉ u → contents (lines (c :: u)) = contents (lines u) := by
      intro u hu
      have hmem : '\n' ∉ c :: u := by simp [hu, Ne.symm hc]
      rw [contents_lines_of_not_mem hmem, contents_lines_of_not_mem hu]
      have hblank : isBlank [c] = true := by simp [isBlank, h]
      exact contents_congr (trim_append_left hblank u)
    induction t using line_induction with
    | line t ht => exact hline t ht
    | feed u t hu _ =>
        rw [← List.cons_append, contents_lines_append_feed, hline u hu,
          contents_lines_append_feed]

/-- White space in front of a text says nothing. -/
theorem contents_lines_append_left (h : isBlank blank = true) (t : Text) :
    contents (lines (blank ++ t)) = contents (lines t) := by
  induction blank with
  | nil => rfl
  | cons c blank ih =>
      obtain ⟨hc, hblank⟩ : isSpace c = true ∧ isBlank blank = true := by simpa [isBlank] using h
      rw [List.cons_append, contents_lines_cons hc, ih hblank]

/-- White space behind a text says nothing. -/
theorem contents_lines_append_right (h : isBlank blank = true) (t : Text) :
    contents (lines (t ++ blank)) = contents (lines t) := by
  rw [contents_eq_flatMap, contents_eq_flatMap]
  exact ignoresEnd_contents.flatMap_lines_append_right h t

/-- **Trimming a text changes nothing** that it says. -/
theorem contents_lines_trim (t : Text) : contents (lines (trim t)) = contents (lines t) := by
  obtain ⟨front, back, -, hfront, hback, ht⟩ := exists_trim_append t
  conv => rhs; rw [ht]
  rw [contents_lines_append_right hback, contents_lines_append_left hfront]

/-! ### The last line -/

/-- What stands behind the last line feed of a text. -/
def lastLine (t : Text) : Text := t.rtakeWhile (· ≠ '\n')

theorem lastLine_of_not_mem (h : '\n' ∉ t) : lastLine t = t := by
  rw [lastLine, List.rtakeWhile_eq_self_iff]
  intro c hc
  simpa using fun heq : c = '\n' => h (heq ▸ hc)

theorem lastLine_append_feed (u t : Text) : lastLine (u ++ '\n' :: t) = lastLine t := by
  rw [lastLine, lastLine, List.rtakeWhile, List.rtakeWhile, List.reverse_append,
    List.reverse_cons, List.append_assoc, List.singleton_append,
    takeWhile_append_cons (by simp)]

end Text

end GitHooks
