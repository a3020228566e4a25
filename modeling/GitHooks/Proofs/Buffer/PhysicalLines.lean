/-
**Physical lines and the lines of a buffer.**

The physical lines of a content end at its line feeds, each with the carriage return before it.  A
buffer is cut at one line ending for the whole content.  Where no pair occurs both are the same.
Where one does, the buffer is cut at the pairs alone, and a line feed without a carriage return
stays inside its line: the physical lines on both sides of it are one line of the buffer, and every
line behind it has a lower number than it should have.  A carriage return at the very end, which no
line feed follows, is left out of the buffer.

Main definitions:

* `Buffer.linesIn` — the lines of a content under a line ending;
* `Buffer.BehindLone` — what stands behind a line feed that has no carriage return before it;
* `Buffer.paired` — lines, each with a pair behind it.

Main results:

* `Text.lines_pair`, `Text.lines_lone` — both kinds of line feeds end a physical line;
* `Buffer.feed_induction` — a content is one open line, or it begins with a line that ends in one of
  three ways;
* `Buffer.behindLone_append_feed` — lone line feeds, line by line;
* `Buffer.linesIn_lf` — without pairs a buffer has the physical lines;
* `Buffer.linesIn_crlf_pair`, `Buffer.linesIn_crlf_lone` — what a pair and what a lone line feed do;
* `Buffer.map_lines_parse` — without a lone line feed a buffer has the physical lines;
* `Buffer.getElem?_lines_parse` — above the first lone line feed the lines have their numbers.
-/

import GitHooks.Proofs.Buffer.ReadBack
import GitHooks.Proofs.Text.Contents

set_option relaxedAutoImplicit false
set_option autoImplicit false

namespace GitHooks

open Text

/-! ### Physical lines -/

namespace Text

variable {u : Text}

theorem lines_pair (hu : '\n' ∉ u) (t : Text) : lines (u ++ '\r' :: '\n' :: t) = u :: lines t := by
  have hmem : '\n' ∉ u ++ ['\r'] := by simpa using hu
  have hdrop : dropTrailing? ['\r'] (u ++ ['\r']) = some u := dropTrailing?_eq_some_iff.2 rfl
  have hshape : u ++ '\r' :: '\n' :: t = (u ++ ['\r']) ++ '\n' :: t := by simp
  rw [hshape, lines_append_feed hmem, dropReturn]
  exact congrArg (fun line => Option.getD line _ :: lines t) hdrop

theorem lines_lone (hu : '\n' ∉ u) (hreturn : ¬ ['\r'] <:+ u) (t : Text) :
    lines (u ++ '\n' :: t) = u :: lines t := by
  rw [lines_append_feed hu, dropReturn_of_not_suffix hreturn]

/-- The physical lines behind a line feed are among those of the whole. -/
theorem lines_suffix (u t : Text) : lines t <:+ lines (u ++ '\n' :: t) := by
  induction u using line_induction with
  | line u hu =>
      rw [lines_append_feed hu]
      exact List.suffix_cons _ _
  | feed v u hv ih =>
      rw [List.append_assoc, List.cons_append, lines_append_feed hv]
      exact ih.trans (List.suffix_cons _ _)

end Text

namespace Buffer

variable {content u t : Text} {c : Char} {newline : Newline}

/-! ### Lines under a line ending -/

/-- The lines of a content under a line ending. -/
def linesIn (newline : Newline) (content : Text) : List Text :=
  if content.isEmpty then [] else splitOn newline.text (bodyOf newline content)

theorem lines_parse_eq_linesIn (content : Text) :
    (parse content).lines = linesIn (Newline.ofText content) content := rfl

theorem linesIn_of_ne_nil (h : content ≠ []) :
    linesIn newline content = splitOn newline.text (bodyOf newline content) :=
  if_neg (by simpa using h)

/-! ### Contents line by line -/

/-- A content is one open line, or begins with a line that is ended by a pair, by a line feed at the
very end, or by a line feed that stands alone before something else. -/
@[elab_as_elim]
theorem feed_induction {motive : Text → Prop} (unended : ∀ t, '\n' ∉ t → motive t)
    (pair : ∀ u t, '\n' ∉ u → motive t → motive (u ++ '\r' :: '\n' :: t))
    (last : ∀ u, '\n' ∉ u → ¬ ['\r'] <:+ u → motive (u ++ ['\n']))
    (lone : ∀ u t, '\n' ∉ u → ¬ ['\r'] <:+ u → t ≠ [] → motive t → motive (u ++ '\n' :: t))
    (content : Text) : motive content := by
  induction content using line_induction with
  | line t ht => exact unended t ht
  | feed u t hu ih =>
      by_cases hreturn : ['\r'] <:+ u
      · obtain ⟨front, rfl⟩ := hreturn
        have hfront : '\n' ∉ front := fun hmem => hu (List.mem_append_left _ hmem)
        have hshape : front ++ ['\r'] ++ '\n' :: t = front ++ '\r' :: '\n' :: t := by simp
        rw [hshape]
        exact pair front t hfront ih
      · by_cases ht : t = []
        · rw [ht]
          exact last u hu hreturn
        · exact lone u t hu hreturn ht ih

/-! ### Lone line feeds -/

/-- What stands behind a line feed that has no carriage return before it. -/
def BehindLone (content back : Text) : Prop :=
  back ≠ [] ∧ ∃ front, content = front ++ '\n' :: back ∧ ¬ ['\r'] <:+ front

theorem not_behindLone_of_not_mem (ht : '\n' ∉ t) (back : Text) : ¬ BehindLone t back := by
  rintro ⟨-, front, rfl, -⟩
  exact ht (by simp)

/-- The lone line feeds of a content are the one behind its first line, if it is one, and those of
what follows. -/
theorem behindLone_append_feed (hu : '\n' ∉ u) (t back : Text) :
    BehindLone (u ++ '\n' :: t) back
      ↔ (t ≠ [] ∧ ¬ ['\r'] <:+ u ∧ back = t) ∨ BehindLone t back := by
  constructor
  · rintro ⟨hback, front, heq, hreturn⟩
    rcases List.append_eq_append_iff.1 heq with ⟨rest, rfl, hrest⟩ | ⟨rest, rfl, hrest⟩
    · cases rest with
      | nil =>
          obtain rfl : t = back := by simpa using hrest
          exact .inl ⟨hback, by simpa using hreturn, rfl⟩
      | cons d front =>
          obtain ⟨rfl, ht⟩ : '\n' = d ∧ t = front ++ '\n' :: back := by simpa using hrest
          refine .inr ⟨hback, front, ht, fun hsuffix => hreturn ?_⟩
          exact hsuffix.trans ((List.suffix_cons _ _).trans (List.suffix_append _ _))
    · cases rest with
      | nil =>
          obtain rfl : back = t := by simpa using hrest
          exact .inl ⟨hback, by simpa using hreturn, rfl⟩
      | cons d rest =>
          obtain ⟨rfl, -⟩ : '\n' = d ∧ _ := by simpa using hrest
          exact absurd (by simp) hu
  · rintro (⟨ht, hreturn, rfl⟩ | ⟨hback, front, rfl, hreturn⟩)
    · exact ⟨ht, u, rfl, hreturn⟩
    · refine ⟨hback, u ++ '\n' :: front, by simp, fun hsuffix => hreturn ?_⟩
      rw [singleton_suffix_iff, List.getLast?_append, List.getLast?_cons] at hsuffix
      cases hlast : front.getLast? with
      | none => simp [hlast] at hsuffix
      | some d => simpa [hlast, singleton_suffix_iff] using hsuffix

/-! ### The body of a content -/

/-- A character at the end of a text is dropped from what the text is put behind, too. -/
theorem dropTrailing?_append (h : t ≠ [] ∨ ¬ [c] <:+ u) :
    (dropTrailing? [c] (u ++ t)).getD (u ++ t) = u ++ (dropTrailing? [c] t).getD t := by
  cases ht : dropTrailing? [c] t with
  | some body =>
      have hsome : dropTrailing? [c] (u ++ t) = some (u ++ body) := by
        rw [dropTrailing?_eq_some_iff, dropTrailing?_eq_some_iff.1 ht, List.append_assoc]
      rw [hsome]
      rfl
  | none =>
      have hnone : dropTrailing? [c] (u ++ t) = none := by
        rw [dropTrailing?_eq_none_iff, singleton_suffix_iff] at ht ⊢
        rw [List.getLast?_append]
        cases hlast : t.getLast? with
        | some d => simpa [hlast] using ht
        | none =>
            obtain rfl := List.getLast?_eq_none_iff.1 hlast
            rw [← singleton_suffix_iff] at *
            simpa [singleton_suffix_iff] using h
      rw [hnone]
      rfl

/-- What stands behind a line feed loses its ending, whatever stands before. -/
theorem bodyOf_append_feed (newline : Newline) (u : Text) (ht : t ≠ []) :
    bodyOf newline (u ++ '\n' :: t) = u ++ '\n' :: bodyOf newline t := by
  have hbody : (dropTrailing? ['\n'] ((u ++ ['\n']) ++ t)).getD ((u ++ ['\n']) ++ t)
      = (u ++ ['\n']) ++ (dropTrailing? ['\n'] t).getD t := dropTrailing?_append (.inl ht)
  have hreturn : ¬ ['\r'] <:+ u ++ ['\n'] := by
    rw [singleton_suffix_iff]
    simp
  have hfeed : bodyOf newline ((u ++ ['\n']) ++ t) = (u ++ ['\n']) ++ bodyOf newline t := by
    cases newline with
    | lf => exact hbody
    | crlf =>
        change (dropTrailing? ['\r'] ((dropTrailing? ['\n'] (u ++ ['\n'] ++ t)).getD _)).getD
          ((dropTrailing? ['\n'] (u ++ ['\n'] ++ t)).getD _) = _
        rw [hbody]
        exact dropTrailing?_append (.inr hreturn)
  simpa using hfeed

/-! ### Without pairs -/

/-- **Without pairs a buffer has the physical lines.** -/
theorem linesIn_lf (h : ¬ ['\r', '\n'] <:+: content) :
    linesIn .lf content = Text.lines content := by
  induction content using feed_induction with
  | unended t ht =>
      by_cases hne : t = []
      · rw [hne]
        rfl
      · have hfeed : ¬ ['\n'] <:+ t := fun hsuffix =>
          ht (hsuffix.subset (List.mem_singleton_self _))
        have hbody : bodyOf .lf t = t := by
          have hnone : dropTrailing? ['\n'] t = none := dropTrailing?_eq_none_iff.2 hfeed
          simp [bodyOf, hnone]
        rw [linesIn_of_ne_nil hne, hbody, lines_of_not_mem ht hne]
        exact splitOn_of_not_mem ht
  | pair u t hu _ => exact absurd ⟨u, t, by simp⟩ h
  | last u hu hreturn =>
      rw [linesIn_of_ne_nil (by simp), bodyOf_lf_feed, lines_append_feed hu,
        dropReturn_of_not_suffix hreturn]
      exact splitOn_of_not_mem hu
  | lone u t hu hreturn ht ih =>
      have hrest : ¬ ['\r', '\n'] <:+: t := fun hin =>
        h (hin.trans ((List.suffix_cons _ _).trans (List.suffix_append _ _)).isInfix)
      have hlines : linesIn .lf (u ++ '\n' :: t) = u :: linesIn .lf t := by
        rw [linesIn_of_ne_nil (by simp), linesIn_of_ne_nil ht, bodyOf_append_feed _ _ ht]
        change splitOn ['\n'] _ = u :: splitOn ['\n'] _
        rw [splitOn_append_feed, splitOn_of_not_mem hu]
        rfl
      rw [hlines, ih hrest, lines_append_feed hu, dropReturn_of_not_suffix hreturn]

/-! ### With pairs -/

theorem not_pair_infix_of_not_mem (hu : '\n' ∉ u) : ¬ ['\r', '\n'] <:+: u := fun hin =>
  hu (hin.subset (by simp))

/-- A line that is not ended at all loses a carriage return. -/
theorem linesIn_crlf_open (ht : '\n' ∉ t) (hne : t ≠ []) : linesIn .crlf t = [dropReturn t] := by
  have hfeed : endsWith t "\n" = false :=
    endsWith_eq_false_iff.2 fun hsuffix => ht (hsuffix.subset (List.mem_singleton_self _))
  have hmem : '\n' ∉ dropReturn t := by
    rw [dropReturn]
    cases hdrop : dropTrailing? "\r" t with
    | none => exact ht
    | some body =>
        rw [dropTrailing?_eq_some_iff.1 hdrop] at ht
        exact fun hin => ht (List.mem_append_left _ hin)
  rw [linesIn_of_ne_nil hne, bodyOf_crlf_open hfeed]
  exact splitOn_of_not_infix (not_pair_infix_of_not_mem hmem)

/-- A pair ends a line. -/
theorem linesIn_crlf_pair (hu : '\n' ∉ u) (t : Text) :
    linesIn .crlf (u ++ '\r' :: '\n' :: t) = u :: linesIn .crlf t := by
  by_cases ht : t = []
  · rw [ht, linesIn_of_ne_nil (by simp), bodyOf_crlf_pair]
    exact splitOn_of_not_infix (not_pair_infix_of_not_mem hu)
  · have hshape : u ++ '\r' :: '\n' :: t = (u ++ ['\r']) ++ '\n' :: t := by simp
    rw [linesIn_of_ne_nil (by simp), linesIn_of_ne_nil ht, hshape, bodyOf_append_feed _ _ ht]
    have hline : Newline.crlf.IsLine u := not_pair_infix_of_not_mem hu
    have hcut : splitOn ['\r', '\n'] (u ++ ['\r', '\n'] ++ bodyOf .crlf t)
        = u :: splitOn ['\r', '\n'] (bodyOf .crlf t) :=
      splitOn_append (Newline.text_ne_nil .crlf) hline.isPiece _
    change splitOn ['\r', '\n'] _ = u :: splitOn ['\r', '\n'] _
    simpa using hcut

/-- A line feed at the very end ends a line, even without a carriage return. -/
theorem linesIn_crlf_last (hu : '\n' ∉ u) (hreturn : ¬ ['\r'] <:+ u) :
    linesIn .crlf (u ++ ['\n']) = [u] := by
  rw [linesIn_of_ne_nil (by simp), bodyOf_crlf_feed]
  change splitOn _ (dropReturn u) = [u]
  rw [dropReturn_of_not_suffix hreturn]
  exact splitOn_of_not_infix (not_pair_infix_of_not_mem hu)

/-- The search for a pair passes over a line feed that stands alone. -/
theorem splitOn_pair_lone (hu : '\n' ∉ u) (hreturn : ¬ ['\r'] <:+ u) (t : Text) :
    splitOn ['\r', '\n'] (u ++ '\n' :: t)
      = (splitOn ['\r', '\n'] t).modifyHead fun line => u ++ '\n' :: line := by
  induction u with
  | nil => rfl
  | cons d u ih =>
      rw [List.mem_cons, not_or] at hu
      rw [List.suffix_cons_iff, not_or] at hreturn
      have hprefix : ['\r', '\n'].isPrefixOf (d :: (u ++ '\n' :: t)) = false := by
        rw [← Bool.not_eq_true, List.isPrefixOf_iff_prefix, List.cons_prefix_cons]
        rintro ⟨rfl, hnext⟩
        cases u with
        | nil => exact hreturn.1 rfl
        | cons e u =>
            rw [List.cons_append, List.cons_prefix_cons] at hnext
            exact hu.2 (hnext.1 ▸ List.mem_cons_self)
      rw [List.cons_append, splitOn, splitFrom, hprefix, if_neg Bool.false_ne_true, ← splitOn,
        ih hu.2 hreturn.2, List.modifyHead_modifyHead]
      rfl

/-- A line feed that stands alone stays inside its line. -/
theorem linesIn_crlf_lone (hu : '\n' ∉ u) (hreturn : ¬ ['\r'] <:+ u) (ht : t ≠ []) :
    linesIn .crlf (u ++ '\n' :: t)
      = (linesIn .crlf t).modifyHead fun line => u ++ '\n' :: line := by
  rw [linesIn_of_ne_nil (by simp), linesIn_of_ne_nil ht, bodyOf_append_feed _ _ ht]
  exact splitOn_pair_lone hu hreturn _

/-- A content that is not empty has a first line. -/
theorem exists_linesIn_cons (newline : Newline) (ht : t ≠ []) :
    ∃ line rest, linesIn newline t = line :: rest := by
  rw [linesIn_of_ne_nil ht]
  exact List.exists_cons_of_ne_nil (splitFrom_ne_nil _ _ _)

/-! ### Where both are the same -/

/-- **Without a lone line feed the lines of a buffer are the physical lines**, for everything that a
carriage return at the end of a line does not change. -/
theorem map_linesIn_crlf {α : Type} {f : Text → α} (hf : ∀ u, f (u ++ ['\r']) = f u)
    (h : ∀ back, ¬ BehindLone content back) :
    (linesIn .crlf content).map f = (Text.lines content).map f := by
  induction content using feed_induction with
  | unended t ht =>
      by_cases hne : t = []
      · rw [hne]
        rfl
      · rw [linesIn_crlf_open ht hne, lines_of_not_mem ht hne, List.map_singleton,
          List.map_singleton, apply_dropReturn hf]
  | pair u t hu ih =>
      have hmem : '\n' ∉ u ++ ['\r'] := by simpa using hu
      have hrest : ∀ back, ¬ BehindLone t back := fun back hback => by
        refine h back ?_
        have hbehind := (behindLone_append_feed hmem t back).2 (.inr hback)
        simpa using hbehind
      rw [linesIn_crlf_pair hu, lines_pair hu, List.map_cons, List.map_cons, ih hrest]
  | last u hu hreturn =>
      rw [linesIn_crlf_last hu hreturn, lines_lone hu hreturn]
      rfl
  | lone u t hu hreturn ht _ =>
      exact absurd ((behindLone_append_feed hu t t).2 (.inl ⟨ht, hreturn, rfl⟩)) (h t)

/-- The same for a content that is read as a buffer. -/
theorem map_lines_parse {α : Type} {f : Text → α} (hf : ∀ u, f (u ++ ['\r']) = f u)
    (h : occursIn "\r\n" content = true → ∀ back, ¬ BehindLone content back) :
    (parse content).lines.map f = (Text.lines content).map f := by
  rw [lines_parse_eq_linesIn]
  cases hpair : occursIn "\r\n" content with
  | true => rw [Newline.ofText_eq_crlf_iff.2 hpair, map_linesIn_crlf hf (h hpair)]
  | false =>
      rw [Newline.ofText_eq_lf_iff.2 hpair, linesIn_lf (occursIn_eq_false_iff.1 hpair)]

/-! ### Lines ended by pairs at the beginning -/

/-- Lines, each with a pair behind it. -/
def paired (front : List Text) : Text := front.flatMap fun line => line ++ ['\r', '\n']

theorem paired_cons_append (line : Text) (rest : List Text) (back : Text) :
    paired (line :: rest) ++ back = line ++ '\r' :: '\n' :: (paired rest ++ back) := by
  simp [paired]

theorem lines_paired {front : List Text} (hfront : ∀ line ∈ front, '\n' ∉ line) (back : Text) :
    Text.lines (paired front ++ back) = front ++ Text.lines back := by
  induction front with
  | nil => rfl
  | cons line rest ih =>
      obtain ⟨hline, hrest⟩ := List.forall_mem_cons.1 hfront
      rw [paired_cons_append, lines_pair hline, ih hrest, List.cons_append]

theorem linesIn_crlf_paired {front : List Text} (hfront : ∀ line ∈ front, '\n' ∉ line)
    (back : Text) : linesIn .crlf (paired front ++ back) = front ++ linesIn .crlf back := by
  induction front with
  | nil => rfl
  | cons line rest ih =>
      obtain ⟨hline, hrest⟩ := List.forall_mem_cons.1 hfront
      rw [paired_cons_append, linesIn_crlf_pair hline, ih hrest, List.cons_append]

/-- **Lines that are ended by pairs have their numbers**, as long as no line feed before them stands
alone. -/
theorem getElem?_lines_parse {front : List Text} (hfront : ∀ line ∈ front, '\n' ∉ line)
    (back : Text) {i : Nat} (hi : i < front.length) :
    (parse (paired front ++ back)).lines[i]? = (Text.lines (paired front ++ back))[i]? := by
  have hcrlf : Newline.ofText (paired front ++ back) = .crlf := by
    obtain ⟨line, rest, rfl⟩ := List.exists_cons_of_length_pos (Nat.zero_lt_of_lt hi)
    exact Newline.ofText_eq_crlf_iff.2
      (occursIn_iff.2 ⟨line, paired rest ++ back, by simp [paired]⟩)
  rw [lines_parse_eq_linesIn, hcrlf, linesIn_crlf_paired hfront, lines_paired hfront,
    List.getElem?_append_left hi, List.getElem?_append_left hi]

end Buffer

end GitHooks
