/-
**Reading back a buffer that was changed.**

A buffer that gets other lines is written with the layout it was read with, and what is written
need not be read as those lines.  A line feed inside a line is taken for an ending where the pair
is not in use, and a carriage return at the end of a line makes a pair with the line feed that
follows.  Lines without either are read back in any layout, and so is any line that a file whose
last line is ended had before: there every line stands before an ending.  The line ending is not
kept anywhere; it is found again as soon as there is one.

Main definitions:

* `Newline.IsLine` — lines that are read back where every line is ended.

Main results:

* `Buffer.isLine_of_mem_parse` — such are the lines of a file whose last line is ended;
* `Buffer.lines_parse_ended`, `Buffer.lines_parse_open` — what is written is read back;
* `Buffer.parse_render`, `Buffer.parse_render_withLines` — the layout is read back too.
-/

import GitHooks.Proofs.Buffer.RoundTrip
import GitHooks.Proofs.Text.Join

set_option relaxedAutoImplicit false
set_option autoImplicit false

namespace GitHooks

open Text

variable {newline : Newline} {line content : Text} {lines : List Text}

/-! ### Pairs -/

/-- A pair at the end of a text without line feeds is made of its last character. -/
theorem pair_infix_append_feed_iff {t : Text} (ht : '\n' ∉ t) (u : Text) :
    ['\r', '\n'] <:+: t ++ '\n' :: u ↔ ['\r'] <:+ t ∨ ['\r', '\n'] <:+: u := by
  induction t with
  | nil => simp [List.infix_cons_iff]
  | cons c t ih =>
      rw [List.mem_cons, not_or] at ht
      rw [List.cons_append, List.infix_cons_iff, ih ht.2, List.suffix_cons_iff]
      cases t with
      | nil => simp [eq_comm]
      | cons d t =>
          have hd : '\n' ≠ d := fun h => ht.2 (h ▸ List.mem_cons_self)
          simp [hd]

theorem pair_infix_concat_return_iff {t : Text} :
    ['\r', '\n'] <:+: t ++ ['\r'] ↔ ['\r', '\n'] <:+: t := by
  rw [List.infix_concat_iff]
  constructor
  · rintro (⟨front, hfront⟩ | hin)
    · have hcut : (front ++ ['\r']) ++ ['\n'] = t ++ ['\r'] := by simpa using hfront
      exact absurd (List.append_inj' hcut rfl).2 (by decide)
    · exact hin
  · exact .inr

/-! ### Lines -/

/-- A line that is read back where every line is ended. -/
def Newline.IsLine : Newline → Text → Prop
  | lf, line => '\n' ∉ line ∧ ¬ ['\r'] <:+ line
  | crlf, line => ¬ ['\r', '\n'] <:+: line

theorem Newline.IsLine.isPiece (h : newline.IsLine line) : IsPiece newline.text line := by
  cases newline with
  | lf =>
      intro hin
      have hmem : '\n' ∈ line ++ [] := hin.subset List.mem_cons_self
      rw [List.append_nil] at hmem
      exact h.1 hmem
  | crlf => exact fun hin => h (pair_infix_concat_return_iff.1 hin)

/-- A line without line feeds that does not end with a carriage return has no pair. -/
theorem Newline.IsLine.of_lf (h : Newline.lf.IsLine line) (newline : Newline) :
    newline.IsLine line := by
  cases newline with
  | lf => exact h
  | crlf =>
      intro hin
      have hmem : '\n' ∈ ['\r', '\n'] := by simp
      exact h.1 (hin.subset hmem)

/-- No pair comes about where such lines are joined with line feeds. -/
theorem not_pair_infix_joinWith (hlines : ∀ line ∈ lines, Newline.lf.IsLine line) :
    ¬ ['\r', '\n'] <:+: joinWith ['\n'] lines ++ ['\n'] := by
  induction lines with
  | nil => decide
  | cons line rest ih =>
      obtain ⟨hfeed, hreturn⟩ := hlines line List.mem_cons_self
      cases rest with
      | nil =>
          rw [joinWith_singleton, pair_infix_append_feed_iff hfeed]
          exact fun h => h.elim hreturn (by decide)
      | cons next rest =>
          have hrest := ih fun other hother => hlines other (List.mem_cons_of_mem _ hother)
          rw [joinWith_cons_cons, List.append_assoc, List.append_assoc]
          change ¬ ['\r', '\n'] <:+: line ++ '\n' :: (joinWith ['\n'] (next :: rest) ++ ['\n'])
          rw [pair_infix_append_feed_iff hfeed]
          exact fun h => h.elim hreturn hrest

/-! ### Ends -/

theorem singleton_suffix_iff {c : Char} {t : Text} : [c] <:+ t ↔ t.getLast? = some c := by
  rw [List.getLast?_eq_some_iff]
  exact ⟨fun ⟨front, h⟩ => ⟨front, h.symm⟩, fun ⟨front, h⟩ => ⟨front, h.symm⟩⟩

/-- Joined lines end as the last of them does, if there is something in it. -/
theorem getLast?_joinWith {separator : Text} (hlast : lines.getLast? = some line)
    (hne : line ≠ []) : (joinWith separator lines).getLast? = line.getLast? := by
  induction lines with
  | nil => simp at hlast
  | cons first rest ih =>
      cases rest with
      | nil =>
          obtain rfl : first = line := by simpa using hlast
          rfl
      | cons next rest =>
          rw [List.getLast?_cons_cons] at hlast
          rw [joinWith_cons_cons, List.getLast?_append, ih hlast, List.getLast?_eq_some_getLast hne,
            Option.some_or]

namespace Buffer

/-! ### Lines of a text -/

theorem lines_parse (hne : content ≠ []) :
    (parse content).lines
      = splitOn (Newline.ofText content).text (bodyOf (Newline.ofText content) content) := by
  have hempty : content.isEmpty = false := by simpa using hne
  rw [parse, hempty, if_neg Bool.false_ne_true]

theorem bodyOf_lf_feed (body : Text) : bodyOf Newline.lf (body ++ ['\n']) = body := by
  have hn : dropTrailing? ['\n'] (body ++ ['\n']) = some body := dropTrailing?_eq_some_iff.2 rfl
  simp [bodyOf, hn]

/-- **The lines of a file whose last line is ended** are read back, since each of them stood before
an ending. -/
theorem isLine_of_mem_parse (hend : ['\n'] <:+ content) (hline : line ∈ (parse content).lines) :
    (Newline.ofText content).IsLine line := by
  obtain ⟨body, rfl⟩ := hend
  rw [lines_parse (by simp)] at hline
  cases hnewline : Newline.ofText (body ++ ['\n']) with
  | crlf =>
      rw [hnewline] at hline
      exact not_infix_of_mem_splitOn (by decide) hline
  | lf =>
      have hpair := occursIn_eq_false_iff.1 (Newline.ofText_eq_lf_iff.1 hnewline)
      rw [hnewline, bodyOf_lf_feed] at hline
      have hfeed : '\n' ∉ line := by
        intro hmem
        obtain ⟨front, back, rfl⟩ := List.append_of_mem hmem
        exact not_infix_of_mem_splitOn (by decide) hline ⟨front, back, by simp [Newline.text]⟩
      have hstands : line ++ ['\n'] <:+: body ++ ['\n'] :=
        append_infix_of_mem_splitOn (by decide) hline
      refine ⟨hfeed, fun hreturn => hpair ?_⟩
      exact ((pair_infix_append_feed_iff hfeed []).2 (.inl hreturn)).trans hstands

/-! ### Reading back -/

/-- **What is written with every line ended is read back.** -/
theorem lines_parse_ended (hne : lines ≠ []) (hlines : ∀ line ∈ lines, newline.IsLine line) :
    (parse (render ⟨lines, newline, true⟩)).lines = lines := by
  have hcut : splitOn newline.text (joinWith newline.text lines) = lines :=
    splitOn_joinWith newline.text_ne_nil hne fun line hline => (hlines line hline).isPiece
  cases newline with
  | lf =>
      have hnewline : Newline.ofText (joinWith ['\n'] lines ++ ['\n']) = .lf :=
        Newline.ofText_eq_lf_iff.2 (occursIn_eq_false_iff.2 (not_pair_infix_joinWith hlines))
      change (parse (joinWith ['\n'] lines ++ ['\n'])).lines = lines
      rw [lines_parse (by simp), hnewline, bodyOf_lf_feed]
      exact hcut
  | crlf =>
      have hnewline : Newline.ofText (joinWith ['\r', '\n'] lines ++ ['\r', '\n']) = .crlf :=
        Newline.ofText_eq_crlf_iff.2 (occursIn_iff.2 (List.suffix_append _ _).isInfix)
      change (parse (joinWith ['\r', '\n'] lines ++ ['\r', '\n'])).lines = lines
      rw [lines_parse (by simp), hnewline, bodyOf_crlf_pair]
      exact hcut

/-- Where the pair is in use, it is found in what is written, unless that is a single line. -/
theorem pair_infix_joinWith (first next : Text) (rest : List Text) :
    ['\r', '\n'] <:+: joinWith ['\r', '\n'] (first :: next :: rest) := by
  rw [joinWith_cons_cons]
  exact ⟨first, _, rfl⟩

/-- The line ending that is found in joined lines joins them. -/
theorem joinWith_ofText (newline : Newline) (hlines : ∀ line ∈ lines, Newline.lf.IsLine line) :
    joinWith (Newline.ofText (joinWith newline.text lines)).text lines
      = joinWith newline.text lines := by
  cases newline with
  | lf =>
      have hpair : ¬ ['\r', '\n'] <:+: joinWith ['\n'] lines := fun hin =>
        not_pair_infix_joinWith hlines (hin.trans (List.prefix_append _ _).isInfix)
      have hnewline : Newline.ofText (joinWith ['\n'] lines) = .lf :=
        Newline.ofText_eq_lf_iff.2 (occursIn_eq_false_iff.2 hpair)
      exact congrArg (fun found => joinWith (Newline.text found) lines) hnewline
  | crlf =>
      match lines with
      | [] => rfl
      | [_] => rfl
      | first :: next :: rest =>
          have hnewline : Newline.ofText (joinWith ['\r', '\n'] (first :: next :: rest)) = .crlf :=
            Newline.ofText_eq_crlf_iff.2 (occursIn_iff.2 (pair_infix_joinWith first next rest))
          exact congrArg (fun found => joinWith (Newline.text found) (first :: next :: rest))
            hnewline

/-- Joined lines end with neither of the two characters, if the last of them is not empty. -/
theorem not_suffix_joinWith (newline : Newline) (hlines : ∀ line ∈ lines, Newline.lf.IsLine line)
    (hlast : lines.getLast? ≠ some []) :
    ¬ ['\n'] <:+ joinWith newline.text lines ∧ ¬ ['\r'] <:+ joinWith newline.text lines := by
  by_cases hne : lines = []
  · subst hne
    exact ⟨by simp, by simp⟩
  · have hsome := List.getLast?_eq_some_getLast hne
    have hfull : lines.getLast hne ≠ [] := fun h => hlast (hsome.trans (congrArg some h))
    obtain ⟨hfeed, hreturn⟩ := hlines _ (List.getLast_mem hne)
    rw [singleton_suffix_iff, singleton_suffix_iff, getLast?_joinWith hsome hfull,
      ← singleton_suffix_iff, ← singleton_suffix_iff]
    exact ⟨fun h => hfeed (h.subset List.mem_cons_self), hreturn⟩

/-- **What is written with the last line left open is read back**, if no line has an ending in it
or makes one with what follows. -/
theorem lines_parse_open (newline : Newline) (hlines : ∀ line ∈ lines, Newline.lf.IsLine line)
    (hlast : lines.getLast? ≠ some []) :
    (parse (render ⟨lines, newline, false⟩)).lines = lines := by
  have hrender : render ⟨lines, newline, false⟩ = joinWith newline.text lines :=
    List.append_nil _
  rw [hrender]
  by_cases hne : lines = []
  · subst hne
    rfl
  · have hjoin : joinWith newline.text lines ≠ [] := by
      intro hnil
      have hsome := List.getLast?_eq_some_getLast hne
      have hfull : lines.getLast hne ≠ [] := fun h => hlast (hsome.trans (congrArg some h))
      have hend : (joinWith newline.text lines).getLast? = (lines.getLast hne).getLast? :=
        getLast?_joinWith hsome hfull
      rw [hnil, List.getLast?_nil, eq_comm, List.getLast?_eq_none_iff] at hend
      exact hfull hend
    obtain ⟨hn, hr⟩ := not_suffix_joinWith newline hlines hlast
    rw [lines_parse hjoin, bodyOf_of_open _ hn hr]
    calc
      splitOn (Newline.ofText (joinWith newline.text lines)).text (joinWith newline.text lines)
        = splitOn (Newline.ofText (joinWith newline.text lines)).text
            (joinWith (Newline.ofText (joinWith newline.text lines)).text lines) := by
          rw [joinWith_ofText newline hlines]
      _ = lines := splitOn_joinWith (Newline.text_ne_nil _) hne
          fun line hline => ((hlines line hline).of_lf _).isPiece

/-! ### The layout -/

/-- Where the pair is not in use, none is found in what is written. -/
theorem ofText_render_lf (hlines : ∀ line ∈ lines, Newline.lf.IsLine line) (finalNewline : Bool) :
    Newline.ofText (render ⟨lines, .lf, finalNewline⟩) = .lf := by
  have hnone := not_pair_infix_joinWith hlines
  refine Newline.ofText_eq_lf_iff.2 (occursIn_eq_false_iff.2 fun hin => hnone (hin.trans ?_))
  cases finalNewline with
  | true => exact List.infix_rfl
  | false =>
      change joinWith ['\n'] lines ++ [] <:+: _
      rw [List.append_nil]
      exact (List.prefix_append _ _).isInfix

/-- Where the pair is in use, it is found in what is written, unless that is a single line whose end
is left open. -/
theorem ofText_render_crlf_iff (hne : lines ≠ []) (hlines : ∀ line ∈ lines, Newline.lf.IsLine line)
    (finalNewline : Bool) : Newline.ofText (render ⟨lines, .crlf, finalNewline⟩) = .crlf
      ↔ 2 ≤ lines.length ∨ finalNewline = true := by
  rw [Newline.ofText_eq_crlf_iff, occursIn_iff]
  match lines, finalNewline with
  | [], _ => exact absurd rfl hne
  | lines, true => exact iff_of_true (List.suffix_append _ _).isInfix (.inr rfl)
  | first :: next :: rest, false =>
      have hpair := pair_infix_joinWith first next rest
      exact iff_of_true (hpair.trans (List.prefix_append _ _).isInfix) (.inl (by simp))
  | [line], false =>
      have hfeed : '\n' ∉ line := (hlines line List.mem_cons_self).1
      refine iff_of_false (fun hin => hfeed ?_) (by simp)
      have hmem : '\n' ∈ line ++ [] := hin.subset (by simp)
      rwa [List.append_nil] at hmem

/-- **What a buffer is read back as**, if no line has an ending in it or makes one with what follows
and the last line is not empty: the same lines, ended in the same way, and the same line ending
unless the pair would have to be found in a single line that is left open. -/
theorem parse_render (hne : lines ≠ []) (hlines : ∀ line ∈ lines, Newline.lf.IsLine line)
    (hlast : lines.getLast? ≠ some []) (newline : Newline) (finalNewline : Bool) :
    (parse (render ⟨lines, newline, finalNewline⟩)).lines = lines
      ∧ (parse (render ⟨lines, newline, finalNewline⟩)).finalNewline = finalNewline
      ∧ ((parse (render ⟨lines, newline, finalNewline⟩)).newline = newline
        ↔ 2 ≤ lines.length ∨ finalNewline = true ∨ newline = .lf) := by
  refine ⟨?_, ?_, ?_⟩
  · cases finalNewline with
    | true => exact lines_parse_ended hne fun line hline => (hlines line hline).of_lf newline
    | false => exact lines_parse_open newline hlines hlast
  · cases finalNewline with
    | true =>
        have hend : ['\n'] <:+ newline.text := by cases newline <;> decide
        exact endsWith_iff.2 (hend.trans (List.suffix_append _ _))
    | false =>
        have hopen := (not_suffix_joinWith newline hlines hlast).1
        exact endsWith_eq_false_iff.2 (by simpa [render] using hopen)
  · change Newline.ofText (render ⟨lines, newline, finalNewline⟩) = newline ↔ _
    cases newline with
    | lf => exact iff_of_true (ofText_render_lf hlines finalNewline) (.inr (.inr rfl))
    | crlf =>
        rw [ofText_render_crlf_iff hne hlines finalNewline]
        simp

/-- **Lines that are put into a buffer are read back as they are written**, if there are some, the
last one is not empty, and none has a carriage return or a line feed: in the layout of the buffer,
whose line ending is told by two lines already and by the end of one. -/
theorem parse_render_withLines (content : Text) (hne : lines ≠ [])
    (hlines : ∀ line ∈ lines, '\r' ∉ line ∧ '\n' ∉ line) (hlast : lines.getLast? ≠ some []) :
    let written := (parse content).withLines lines
    (parse written.render).lines = lines
      ∧ (parse written.render).finalNewline = written.finalNewline
      ∧ (2 ≤ lines.length ∨ written.finalNewline = true →
        (parse written.render).newline = written.newline) := by
  intro written
  have hplain : ∀ line ∈ lines, Newline.lf.IsLine line := fun line hline =>
    ⟨(hlines line hline).2, fun hend => (hlines line hline).1 (hend.subset List.mem_cons_self)⟩
  obtain ⟨hread, hfinal, hnewline⟩ :=
    parse_render hne hplain hlast written.newline written.finalNewline
  exact ⟨hread, hfinal, fun h => hnewline.2 (h.imp id .inl)⟩

/-- Three lines, of which the second is empty, in a buffer of two lines that are joined by a
pair. -/
theorem parse_render_withLines_pairs :
    (["x", "", "y"] : List Text) ≠ []
      ∧ (∀ line ∈ (["x", "", "y"] : List Text), '\r' ∉ line ∧ '\n' ∉ line)
      ∧ (["x", "", "y"] : List Text).getLast? ≠ some []
      ∧ let written := (parse "a\r\nb").withLines ["x", "", "y"]
        written.render = "x\r\n\r\ny"
          ∧ (parse written.render).lines = ["x".toList, "".toList, "y".toList]
          ∧ (parse written.render).finalNewline = false
          ∧ (parse written.render).newline = .crlf := by
  have hne : (["x", "", "y"] : List Text) ≠ [] := by decide
  have hlines : ∀ line ∈ (["x", "", "y"] : List Text), '\r' ∉ line ∧ '\n' ∉ line := by decide
  have hlast : (["x", "", "y"] : List Text).getLast? ≠ some [] := by decide
  obtain ⟨hread, hfinal, hnewline⟩ := parse_render_withLines "a\r\nb" hne hlines hlast
  exact ⟨hne, hlines, hlast, by decide, hread, hfinal, hnewline (.inl (by decide))⟩

end Buffer

end GitHooks
