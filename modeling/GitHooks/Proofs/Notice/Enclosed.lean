/-
**Notices and the markers around them.**

The wording of a notice comes from a user and is put between markers as it is.  What is looked at is
whether a line begins with the opening marker already, and whether it ends with the closing one; a
docstring is only opened and closed.  So a closing marker inside the wording ends the comment or the
docstring too early, and this is the only way in which what is added can get out of its markers,
apart from wordings whose edges run together with a marker.

Main definitions:

* `Notice.behind`, `Notice.unmarked` — what stands behind the opening marker of a line, and a line
  without the marker it may have;
* `Notice.Placement` — how a notice is put into a file;
* `Notice.Placement.Enclosed` — lines that stay within their markers;
* `Notice.Placement.Clear`, `Notice.Placement.Apart` — wordings without the closing marker, and
  wordings whose edges do not run together with the markers.

Main results:

* `Notice.closes_wrapLine` — a line in the markers of a block comment;
* `Notice.keeps_of` — what is put between markers stays there if the wording lets it;
* `Notice.add_enclosed` — which of the notices that are added to files stay within their markers.
-/

import GitHooks.Proofs.Notice.Idempotence
import GitHooks.Proofs.Text.AtEnd

set_option relaxedAutoImplicit false
set_option autoImplicit false

namespace GitHooks

namespace Notice

open Text
open Header

variable {language : Language} {lines notice : List Text} {opening closing line : Text}

/-! ### Lines in the markers of a block comment -/

/-- What stands behind the opening marker of a line, which may be indented. -/
def behind (opening line : Text) : Text := (trimStart line).drop opening.length

/-- A line without the opening marker it may begin with already; else without the white space that
it ends with. -/
def unmarked (opening line : Text) : Text :=
  if startsWith (trimStart line) opening then behind opening line else trimEnd line

theorem behind_append (hne : opening ≠ []) (h : startsWith (trimStart line) opening = true)
    (t : Text) : behind opening (line ++ t) = behind opening line ++ t := by
  obtain ⟨rest, hrest⟩ := startsWith_iff.1 h
  have hnil : trimStart line ≠ [] := by
    rw [← hrest]
    exact List.append_ne_nil_of_left_ne_nil hne rest
  rw [behind, behind, trimStart_append hnil, ← hrest, List.append_assoc, List.drop_left,
    List.drop_left]

theorem behind_suffix (opening line : Text) : behind opening line <:+ line :=
  (List.drop_suffix _ _).trans (List.dropWhile_suffix _)

/-- A line that has no opening marker gets one, and a space where something follows. -/
theorem withLeading_of_not (hm : PlainMark opening)
    (h : startsWith (trimStart line) opening = false) :
    withLeading opening line = opening ++ trimEnd (' ' :: line) := by
  obtain ⟨v, d, hv, hd⟩ := hm.endsTight
  rw [withLeading, h, if_neg Bool.false_ne_true]
  have hassoc : opening ++ " " ++ line = v ++ d :: (' ' :: line) := by
    rw [hv]
    simp
  rw [hassoc, trimEnd_append_cons hd, hv, List.append_assoc]
  rfl

theorem behind_marked (hm : PlainMark opening) (t : Text) : behind opening (opening ++ t) = t := by
  rw [behind, trimStart_marked hm, List.drop_left]

theorem trimEnd_space_cons (t : Text) :
    trimEnd (' ' :: t) = if trimEnd t = [] then [] else ' ' :: trimEnd t := by
  cases ht : trimEnd t with
  | nil => simp [trimEnd, ht, isSpace]
  | cons c u => simp [trimEnd, ht]

/-- The markers of block comments. -/
structure BlockMarks (opening closing : Text) : Prop where
  opens : PlainMark opening
  ne_nil : closing ≠ []
  solid : ' ' ∉ closing
  apart : ¬ closing <:+ opening

theorem blockMarks_of_mem (hl : language ∈ Language.all)
    (hc : language.comments = CommentStyle.block opening closing) :
    BlockMarks opening closing := by
  have hall : ∀ language ∈ Language.all, ∀ closing ∈ language.comments.trailing?,
      closing ≠ [] ∧ ' ' ∉ closing ∧ ¬ closing <:+ language.comments.leading := by decide
  have hopens := plainMark_of_mem hl
  obtain ⟨hne, hsolid, hapart⟩ := hall language hl closing (by simp [hc])
  rw [hc] at hopens hapart
  exact ⟨hopens, hne, hsolid, hapart⟩

section Marked

variable (hb : BlockMarks opening closing)

include hb

/-- The opening marker brings no closing one with it. -/
theorem onlyAtEnd_behind_withLeading (line : Text) :
    OnlyAtEnd closing (behind opening (withLeading opening line))
      ↔ OnlyAtEnd closing (unmarked opening line) := by
  cases h : startsWith (trimStart line) opening with
  | true => rw [withLeading, unmarked, h, if_pos rfl, if_pos rfl]
  | false =>
      rw [withLeading_of_not hb.opens h, behind_marked hb.opens, unmarked, h,
        if_neg Bool.false_ne_true, trimEnd_space_cons]
      split
      · next hnil => rw [hnil]
      · refine (onlyAtEnd_append_cons (t := []) hb.solid hb.ne_nil).trans (and_iff_right ?_)
        simpa using hb.ne_nil

/-- Where a line ends with the closing marker, this stands behind the opening one. -/
theorem suffix_behind_withLeading
    (hline : startsWith (trimStart line) opening = true → closing <:+ line →
      closing <:+ behind opening line)
    (hends : closing <:+ withLeading opening line) :
    closing <:+ behind opening (withLeading opening line) := by
  cases h : startsWith (trimStart line) opening with
  | true =>
      rw [withLeading, h, if_pos rfl] at hends ⊢
      exact hline h hends
  | false =>
      rw [withLeading_of_not hb.opens h, behind_marked hb.opens]
      rw [withLeading_of_not hb.opens h] at hends
      rw [trimEnd_space_cons] at hends ⊢
      split
      · next hnil =>
        rw [if_pos hnil, List.append_nil] at hends
        exact absurd hends hb.apart
      · next hne =>
        rw [if_neg hne, suffix_append_cons_iff hb.solid] at hends
        exact hends.trans (List.suffix_cons _ _)

/-- **A line in the markers of a block comment** holds the closing marker behind the opening one at
its end only, exactly when the line without markers does; and it ends with it there, unless the line
was an opening marker run together with a closing one. -/
theorem closes_wrapLine (line : Text) :
    (OnlyAtEnd closing (behind opening (wrapLine (CommentStyle.block opening closing) line))
        ↔ OnlyAtEnd closing (unmarked opening line))
      ∧ ((startsWith (trimStart line) opening = true → closing <:+ line →
            closing <:+ behind opening line) →
          closing <:+ behind opening (wrapLine (CommentStyle.block opening closing) line)) := by
  have hmark : PlainMark (CommentStyle.line opening).leading := hb.opens
  have hopens : startsWith (trimStart (withLeading opening line)) opening = true :=
    startsWith_wrapLine hmark line
  rw [← onlyAtEnd_behind_withLeading hb]
  cases hends : endsWith (withLeading opening line) closing with
  | true =>
      have hwrap : wrapLine (CommentStyle.block opening closing) line = withLeading opening line :=
        if_pos hends
      rw [hwrap]
      exact ⟨Iff.rfl, fun hline => suffix_behind_withLeading hb hline (endsWith_iff.1 hends)⟩
  | false =>
      have hwrap : wrapLine (CommentStyle.block opening closing) line
          = withLeading opening line ++ ' ' :: closing :=
        (if_neg (Bool.eq_false_iff.1 hends)).trans (by simp)
      have hnot : ¬ closing <:+ behind opening (withLeading opening line) := fun h =>
        endsWith_eq_false_iff.1 hends (h.trans (behind_suffix _ _))
      rw [hwrap, behind_append hb.opens.ne_nil hopens]
      exact ⟨onlyAtEnd_append_space hb.solid hb.ne_nil hnot,
        fun _ => (List.suffix_cons _ _).trans (List.suffix_append _ _)⟩

end Marked

/-! ### Where a notice is put -/

/-- The quote of a docstring that is made for a notice. -/
def freshQuote : Text := "\"\"\""

/-- The line that is made of what a docstring has behind its quote, if there is anything. -/
def remainderLine (remainder : Text) : List Text := if isBlank remainder then [] else [remainder]

/-- How a notice is put into a file. -/
inductive Placement where
  /-- In the markers of comments, line by line. -/
  | comment (comments : CommentStyle)
  /-- In a docstring of its own. -/
  | fresh
  /-- At the beginning of the docstring that a quote opens. -/
  | merged (quote : Text)

namespace Placement

/-- How a notice is put in front of a body. -/
def of (settings : NoticeSettings) (language : Language) (body : List Text) : Placement :=
  if settings.docstring && language.docstrings then
    match body.head?.bind docstringQuote? with
    | some quote => merged quote
    | none => fresh
  else comment language.comments

/-- The lines that are put into a file for the lines of a notice. -/
def placed (notice : List Text) : Placement → List Text
  | comment comments => notice.map (wrapLine comments)
  | fresh => Text.lines (freshQuote ++ joinWith "\n" notice ++ freshQuote)
  | merged quote => Text.lines (quote ++ joinWith "\n" notice)

/-- What of a body stands behind the lines that are put in front of it: all of it, or what is left
behind the quote that it begins with, after an empty line. -/
def kept (body : List Text) : Placement → List Text
  | comment _ | fresh => separated body
  | merged quote =>
    match body with
    | [] => []
    | first :: following =>
      [] :: (remainderLine ((trimStart first).drop quote.length) ++ following)

/-- Every line begins with the marker of comments, or the first one with the quote. -/
def Opened (inserted : List Text) : Placement → Prop
  | comment comments => ∀ line ∈ inserted, startsWith (trimStart line) comments.leading = true
  | fresh => freshQuote <+: joinWith "\n" inserted
  | merged quote => quote <+: joinWith "\n" inserted

/-- Behind what opens them, lines are closed by the marker or the quote that they end with, and not
before; those in a docstring that goes on are not closed. -/
def Enclosed (inserted : List Text) : Placement → Prop
  | comment comments => ∀ line ∈ inserted, ∀ closing ∈ comments.trailing?,
      ClosedBy closing (behind comments.leading line)
  | fresh => ClosedBy freshQuote ((joinWith "\n" inserted).drop freshQuote.length)
  | merged quote => ¬ quote <:+: (joinWith "\n" inserted).drop quote.length

/-- No line of a notice has what closes it, except for a closing marker at its end. -/
def Clear (notice : List Text) : Placement → Prop
  | comment comments => ∀ line ∈ notice, ∀ closing ∈ comments.trailing?,
      OnlyAtEnd closing (unmarked comments.leading line)
  | fresh => ∀ line ∈ notice, ¬ freshQuote <:+: line
  | merged quote => ∀ line ∈ notice, ¬ quote <:+: line

/-- The edges of a notice do not run together with what opens or closes it: no line is an opening
marker whose end is part of a closing one, and in front of a closing quote stands no other. -/
def Apart (notice : List Text) : Placement → Prop
  | comment comments => ∀ line ∈ notice, ∀ closing ∈ comments.trailing?,
      startsWith (trimStart line) comments.leading = true → closing <:+ line →
        closing <:+ behind comments.leading line
  | fresh => ∀ line ∈ notice.getLast?, ¬ ['"'] <:+ line
  | merged _ => True

end Placement

/-- What is inserted is the placed notice and what is kept of the body behind it. -/
theorem inserted_eq_placed (settings : NoticeSettings) (language : Language) (year : Int)
    (body : List Text) : inserted settings language year body
      = (plainLines settings.name year none settings.format).map fun notice =>
          (Placement.of settings language body).placed notice
            ++ (Placement.of settings language body).kept body := by
  rw [inserted, Placement.of]
  split
  · cases body with
    | nil => rfl
    | cons first rest =>
        rw [List.head?_cons, Option.bind_some]
        cases hq : docstringQuote? first with
        | none =>
            simp only [docstringLines, hq]
            rfl
        | some quote =>
            simp only [docstringLines, hq, Placement.placed, Placement.kept, List.append_assoc]
            rfl
  · rw [commentLines]
    cases plainLines settings.name year none settings.format with
    | error fault => rfl
    | ok notice => rfl

theorem exists_inserted_eq_placed (settings : NoticeSettings) (language : Language) (year : Int)
    (body : List Text) : ∃ more, inserted settings language year body
      = (plainLines settings.name year none settings.format).map fun notice =>
          (Placement.of settings language body).placed notice ++ more :=
  ⟨_, inserted_eq_placed settings language year body⟩

/-! ### What stays within its markers -/

theorem quote_of_mem {quote : Text} (hq : quote ∈ docstringQuotes) :
    '\n' ∉ quote ∧ '\r' ∉ quote ∧ quote ≠ [] := by
  have hall : ∀ quote ∈ docstringQuotes, '\n' ∉ quote ∧ '\r' ∉ quote ∧ quote ≠ [] := by decide
  exact hall quote hq

/-- The lines of a docstring that is made for a notice, joined again. -/
theorem joinWith_placed_fresh (notice : List Text) :
    ∃ kept, joinWith "\n" (Placement.fresh.placed notice) = freshQuote ++ (kept ++ freshQuote)
      ∧ (freshQuote <:+: kept ↔ ∃ line ∈ notice, freshQuote <:+: line)
      ∧ (['"'] <:+ kept ↔ ∃ line ∈ notice.getLast?, ['"'] <:+ line) := by
  have hquote : freshQuote ∈ docstringQuotes := List.mem_cons_self ..
  obtain ⟨hfeed, hreturn, hne⟩ := quote_of_mem hquote
  obtain ⟨kept, hkept, hpiece⟩ := exists_joinWith_lines_append (joinWith ['\n'] notice)
  refine ⟨kept, ?_, ?_, ?_⟩
  · rw [← hkept freshQuote hne hfeed, ← joinWith_lines_append hfeed hreturn, ← List.append_assoc]
    rfl
  · rw [(hpiece freshQuote hfeed hreturn).1, infix_joinWith_iff hfeed hne]
  · rw [(hpiece ['"'] (by decide) (by decide)).2, suffix_joinWith_iff (by decide) (by decide)]

/-- The lines of a notice in a docstring that goes on, joined again. -/
theorem joinWith_placed_merged {quote : Text} (hq : quote ∈ docstringQuotes) (notice : List Text) :
    ∃ kept, joinWith "\n" ((Placement.merged quote).placed notice) = quote ++ kept
      ∧ (quote <:+: kept ↔ ∃ line ∈ notice, quote <:+: line) := by
  obtain ⟨hfeed, hreturn, hne⟩ := quote_of_mem hq
  refine ⟨joinWith ['\n'] (Text.lines (joinWith ['\n'] notice)), ?_, ?_⟩
  · exact joinWith_lines_append hfeed hreturn _
  · rw [infix_joinWith_lines_iff hfeed hreturn, infix_joinWith_iff hfeed hne]

/-- What is put between markers begins with them; it stays between them only if the notice has
nothing that closes it, and then it does, if the edges of the notice do not run together with the
markers. -/
structure Placement.Keeps (placement : Placement) (notice : List Text) : Prop where
  opened : placement.Opened (placement.placed notice)
  clear : placement.Enclosed (placement.placed notice) → placement.Clear notice
  enclosed : placement.Clear notice → placement.Apart notice →
    placement.Enclosed (placement.placed notice)

theorem keeps_comment (hl : language ∈ Language.all) (notice : List Text) :
    (Placement.comment language.comments).Keeps notice := by
  -- only block comments have a closing marker
  have hblock : ∀ closing ∈ language.comments.trailing?,
      BlockMarks language.comments.leading closing
        ∧ language.comments = CommentStyle.block language.comments.leading closing := by
    intro closing hclosing
    cases hc : language.comments with
    | line mark => simp [hc] at hclosing
    | block opening closing' =>
        obtain rfl : closing' = closing := by simpa [hc] using hclosing
        exact ⟨blockMarks_of_mem hl hc, rfl⟩
  refine ⟨?_, ?_, ?_⟩
  · intro line hline
    obtain ⟨plain, -, rfl⟩ := List.mem_map.1 hline
    exact startsWith_wrapLine (plainMark_of_mem hl) plain
  · intro henclosed line hline closing hclosing
    obtain ⟨hmarks, hc⟩ := hblock closing hclosing
    have honly := (henclosed _ (List.mem_map_of_mem hline) closing hclosing).only
    rw [hc] at honly
    exact (closes_wrapLine hmarks line).1.1 honly
  · intro hclear hapart line hline closing hclosing
    obtain ⟨plain, hplain, rfl⟩ := List.mem_map.1 hline
    obtain ⟨hmarks, hc⟩ := hblock closing hclosing
    obtain ⟨honly, hends⟩ := closes_wrapLine hmarks plain
    rw [hc]
    exact ⟨hends (hapart plain hplain closing hclosing),
      honly.2 (hclear plain hplain closing hclosing)⟩

theorem keeps_fresh (notice : List Text) : Placement.fresh.Keeps notice := by
  have hquote : ∀ d ∈ freshQuote, d = '"' := fun d hd => by simpa [freshQuote] using hd
  obtain ⟨kept, hjoin, hin, hend⟩ := joinWith_placed_fresh notice
  have hdrop : (joinWith "\n" (Placement.fresh.placed notice)).drop freshQuote.length
      = kept ++ freshQuote := by
    rw [hjoin, List.drop_left]
  refine ⟨⟨_, hjoin.symm⟩, ?_, ?_⟩
  · intro henclosed line hline hoccurs
    obtain ⟨front, back, hfront⟩ := hin.2 ⟨line, hline, hoccurs⟩
    rw [Placement.Enclosed, hdrop] at henclosed
    have hback := henclosed.only front (back ++ freshQuote) (by rw [← hfront, List.append_assoc])
    exact absurd hback (List.append_ne_nil_of_right_ne_nil _ (List.cons_ne_nil _ _))
  · intro hclear hapart
    rw [Placement.Enclosed, hdrop]
    refine ⟨List.suffix_append _ _, onlyAtEnd_append_self hquote ?_ ?_⟩
    · rintro hoccurs
      obtain ⟨line, hline, hoccurs⟩ := hin.1 hoccurs
      exact hclear line hline hoccurs
    · rintro hlast
      obtain ⟨line, hline, hlast⟩ := hend.1 hlast
      exact hapart line hline hlast

theorem keeps_merged {quote : Text} (hq : quote ∈ docstringQuotes) (notice : List Text) :
    (Placement.merged quote).Keeps notice := by
  obtain ⟨kept, hjoin, hin⟩ := joinWith_placed_merged hq notice
  have hdrop : (joinWith "\n" ((Placement.merged quote).placed notice)).drop quote.length
      = kept := by
    rw [hjoin, List.drop_left]
  refine ⟨⟨_, hjoin.symm⟩, ?_, ?_⟩
  · intro henclosed line hline hoccurs
    rw [Placement.Enclosed, hdrop] at henclosed
    exact henclosed (hin.2 ⟨line, hline, hoccurs⟩)
  · intro hclear _
    rw [Placement.Enclosed, hdrop]
    rintro hoccurs
    obtain ⟨line, hline, hoccurs⟩ := hin.1 hoccurs
    exact hclear line hline hoccurs

/-- A notice is kept between markers wherever it is put. -/
theorem keeps_of (hl : language ∈ Language.all) (settings : NoticeSettings)
    (body notice : List Text) : (Placement.of settings language body).Keeps notice := by
  rw [Placement.of]
  split
  · cases hquote : body.head?.bind docstringQuote? with
    | none => exact keeps_fresh notice
    | some quote =>
        obtain ⟨first, -, hfirst⟩ := Option.bind_eq_some_iff.1 hquote
        exact keeps_merged (List.mem_of_find?_eq_some hfirst) notice
  · exact keeps_comment hl notice

/-- **Which notices stay within their markers.**  With settings that have been accepted, a notice
can be added to every file without one, and what is added begins with the markers of comments, line
by line, or with the quote of a docstring.  Behind these it is closed at its end and not before, or
not closed at all in a docstring that goes on, only if no line of the notice has the closing marker
or the quote in it; and then it is, if the edges of the notice do not run together with the
markers. -/
theorem add_enclosed {commandLine files : Settings.Layer} {identity : Option Text}
    {resolved : Settings.Resolved}
    (h : Settings.resolve commandLine files identity = Except.ok resolved)
    (hl : language ∈ Language.all) (hn : (find language lines).notice = none) (year : Int) :
    let settings := resolved.forLanguage language
    let placement :=
      Placement.of settings language (bodyOf (lines.drop (preambleLength lines)))
    ∃ notice edit more,
      plainLines settings.name year none settings.format = Except.ok notice
        ∧ add lines settings language year = Except.ok edit
        ∧ edit.lines = preambleOf lines ++ (placement.placed notice ++ more)
        ∧ placement.Opened (placement.placed notice)
        ∧ (placement.Enclosed (placement.placed notice) → placement.Clear notice)
        ∧ (placement.Clear notice → placement.Apart notice →
          placement.Enclosed (placement.placed notice)) := by
  intro settings placement
  obtain ⟨more, hmore⟩ := exists_inserted_eq_placed settings language year
    (bodyOf (lines.drop (preambleLength lines)))
  have hplain : plainLines settings.name year none settings.format
      = Except.ok (Text.lines (fill settings.name (yearsText year none) settings.format)) := by
    rw [plainLines, Settings.check_forLanguage h language]
    rfl
  rw [hplain] at hmore
  have hkeeps := keeps_of hl settings (bodyOf (lines.drop (preambleLength lines)))
    (Text.lines (fill settings.name (yearsText year none) settings.format))
  exact ⟨_, _, more, hplain, add_of_none hn hmore, rfl, hkeeps.opened, hkeeps.clear,
    hkeeps.enclosed⟩

/-- The files of a language with block comments. -/
def blockLanguage : Language := Language.plain "c" ["c", "h"] CommentStyle.stars

/-- The settings of a user who gives only a name. -/
def namedSettings (name : Text) : Settings.Resolved :=
  ⟨name, NoticeFormat.standard, false, []⟩

theorem resolve_named (name : Text) :
    Settings.resolve { Settings.Layer.empty with name := some name } Settings.Layer.empty none
      = Except.ok (namedSettings name) := rfl

theorem mem_all_blockLanguage : blockLanguage ∈ Language.all := by decide

theorem find_declaration : (find blockLanguage ["int y;"]).notice = none := by decide +kernel

theorem plainLines_named {name : Text} {notice : List Text}
    (h : Text.lines (fill name (ofInt 2024) NoticeFormat.standard) = notice) :
    plainLines ((namedSettings name).forLanguage blockLanguage).name 2024 none
      ((namedSettings name).forLanguage blockLanguage).format = Except.ok notice :=
  congrArg Except.ok h

theorem placement_named (name : Text) (body : List Text) :
    Placement.of ((namedSettings name).forLanguage blockLanguage) blockLanguage body
      = Placement.comment blockLanguage.comments := rfl

/-- A notice with an ordinary name stays in its comment. -/
theorem add_enclosed_ordinary_name :
    Settings.resolve { Settings.Layer.empty with name := some "Ada" } Settings.Layer.empty none
        = Except.ok (namedSettings "Ada")
      ∧ blockLanguage ∈ Language.all
      ∧ (find blockLanguage ["int y;"]).notice = none
      ∧ ∃ edit more,
        add ["int y;"] ((namedSettings "Ada").forLanguage blockLanguage) blockLanguage 2024
            = Except.ok edit
          ∧ edit.lines = preambleOf ["int y;"]
            ++ ((Placement.comment CommentStyle.stars).placed ["Copyright (c) 2024 Ada"] ++ more)
          ∧ (Placement.comment CommentStyle.stars).Enclosed
            ((Placement.comment CommentStyle.stars).placed ["Copyright (c) 2024 Ada"]) := by
  refine ⟨resolve_named "Ada", mem_all_blockLanguage, find_declaration, ?_⟩
  obtain ⟨notice, edit, more, hnotice, hedit, hlines, -, -, henclosed⟩ :=
    add_enclosed (resolve_named "Ada") mem_all_blockLanguage find_declaration 2024
  obtain rfl : notice = ["Copyright (c) 2024 Ada"] :=
    Except.ok.inj (hnotice.symm.trans (plainLines_named (by decide +kernel)))
  rw [placement_named] at hlines henclosed
  refine ⟨edit, more, hedit, hlines, henclosed ?_ ?_⟩
  · intro line hline closing hclosing
    obtain rfl := List.mem_singleton.1 hline
    obtain rfl := Option.some.inj hclosing
    exact (onlyAtEnd_iff (by decide)).2 (by decide +kernel)
  · intro line hline closing _ hopens
    obtain rfl := List.mem_singleton.1 hline
    exact absurd hopens (by decide +kernel)

/-- A name with a closing marker in it ends its comment: what follows in the name is code. -/
theorem not_add_enclosed :
    ¬ ∀ (commandLine files : Settings.Layer) (identity : Option Text)
        (resolved : Settings.Resolved),
        Settings.resolve commandLine files identity = Except.ok resolved →
        ∀ language ∈ Language.all, ∀ (lines notice : List Text) (year : Int),
        (find language lines).notice = none →
        plainLines (resolved.forLanguage language).name year none
          (resolved.forLanguage language).format = Except.ok notice →
        let placement := Placement.of (resolved.forLanguage language) language
          (bodyOf (lines.drop (preambleLength lines)))
        placement.Opened (placement.placed notice)
          ∧ placement.Enclosed (placement.placed notice) := by
  intro h
  let notice : List Text := ["Copyright (c) 2024 */ int x; /*"]
  have henclosed := (h _ _ none _ (resolve_named "*/ int x; /*") _ mem_all_blockLanguage ["int y;"]
    notice 2024 find_declaration (plainLines_named (by decide +kernel))).2
  rw [placement_named] at henclosed
  have hclear := (keeps_comment mem_all_blockLanguage notice).clear henclosed _
    (List.mem_singleton.2 rfl) "*/" rfl
  exact absurd hclear (mt (onlyAtEnd_iff (by decide)).1 (by decide +kernel))

end Notice

end GitHooks
