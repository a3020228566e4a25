/-
**Imports of test tools, told by the whole name.**

A line imports a test tool when the name behind the keyword is the name of one, as a whole.  The
search for such lines is often written as a pattern, in which the names are alternatives and the
last one found must end at the end of a word.  One name is the beginning of another, so it might
depend on the order of the alternatives what is found, and also on how much white space is taken at
first.  It does not: white space ends where the keyword begins, and again where the name begins, and
a name that ends at the end of a word is the whole word.  So all ways to match the pattern find the
same name, if there are any.

Main definitions:

* `TestImport.Imports` — what the import of a tool looks like;
* `TestImport.opening`, `TestImport.matched` — the search as a pattern, and what it finds.

Main results:

* `TestImport.toolOf?_eq_some_iff` — the tool that a line imports;
* `TestImport.head?_matched` — the tool that a line imports is the first that the pattern finds;
* `TestImport.inLines_exact` — the imports among the lines of a module.
-/

import GitHooks.Proofs.Hook.LineNumbers
import GitHooks.Proofs.Text.Decimal
import GitHooks.Proofs.Text.Pattern

set_option relaxedAutoImplicit false
set_option autoImplicit false

namespace GitHooks

namespace TestImport

open Text

variable {line tool keyword rest t : Text}

/-! ### What an import looks like -/

/-- The words that an import begins with. -/
def keywords : List Text := ["import", "from"]

/-- A line that imports a tool: white space, a keyword, white space, and the tool as a whole word,
with anything behind it. -/
def Imports (line tool : Text) : Prop :=
  ∃ blank keyword gap rest, isBlank blank = true ∧ keyword ∈ keywords ∧ gap ≠ []
    ∧ isBlank gap = true ∧ tool ∈ tools ∧ IsWordIn line (blank ++ (keyword ++ gap)) tool rest

/-- Keywords and tools are words. -/
theorem isRun_of_mem {word : Text} (h : word ∈ keywords ++ tools) : IsRun word := by
  have hall : ∀ word ∈ keywords ++ tools, word ≠ [] ∧ word.all isWord = true := by decide
  exact ⟨(hall word h).1, List.all_eq_true.1 (hall word h).2⟩

/-- White space ends where a word begins. -/
theorem trimStart_append_word {blank word : Text} (hblank : isBlank blank = true)
    (hword : IsRun word) (t : Text) : trimStart (blank ++ (word ++ t)) = word ++ t := by
  rw [trimStart_append_of_isBlank hblank]
  obtain ⟨hne, hword⟩ := hword
  cases word with
  | nil => exact absurd rfl hne
  | cons c word =>
      refine trimStart_cons (Bool.eq_false_iff.2 fun hspace => ?_) _
      have hc := hword c List.mem_cons_self
      rw [isWord_of_isSpace hspace] at hc
      cases hc

/-- No word ends with white space. -/
theorem endsInWord_append_blank {gap : Text} (hne : gap ≠ []) (hgap : isBlank gap = true)
    (u : Text) : endsInWord (u ++ gap) = false := by
  rw [endsInWord_append hne, endsInWord, Option.any_eq_false]
  intro c hc
  have hspace : isSpace c = true := List.all_eq_true.1 hgap c (List.mem_of_getLast? hc)
  rw [isWord_of_isSpace hspace]

theorem indentation_append_ne_zero {gap : Text} (hne : gap ≠ []) (hgap : isBlank gap = true)
    (t : Text) : indentation (gap ++ t) ≠ 0 := by
  obtain ⟨c, gap, rfl⟩ := List.exists_cons_of_ne_nil hne
  have hc : isSpace c = true := List.all_eq_true.1 hgap c List.mem_cons_self
  simp [indentation, hc]

/-- Neither keyword is the beginning of the other, so it does not matter which is looked for
first. -/
theorem afterKeyword?_eq_some_iff :
    afterKeyword? t = some rest ↔ ∃ keyword ∈ keywords, t = keyword ++ rest := by
  rw [afterKeyword?, Option.or_eq_some_iff, dropLeading?_eq_some_iff, dropLeading?_eq_some_iff,
    dropLeading?_eq_none_iff]
  constructor
  · rintro (rfl | ⟨-, rfl⟩)
    · exact ⟨"import", by decide, rfl⟩
    · exact ⟨"from", by decide, rfl⟩
  · rintro ⟨keyword, hkeyword, rfl⟩
    rcases List.mem_pair.1 hkeyword with rfl | rfl
    · exact .inl rfl
    · refine .inr ⟨fun hprefix => ?_, rfl⟩
      cases (List.cons_prefix_cons.1 hprefix).1

/-- **The tool that a line imports.** -/
theorem toolOf?_eq_some_iff : toolOf? line = some tool ↔ Imports line tool := by
  rw [toolOf?, Option.bind_eq_some_iff]
  constructor
  · rintro ⟨rest, hrest, hname⟩
    obtain ⟨keyword, hkeyword, hline⟩ := afterKeyword?_eq_some_iff.1 hrest
    obtain ⟨blank, hblank, hparts⟩ := exists_append_trimStart line
    dsimp only at hname
    split_ifs at hname with hfound
    obtain rfl := Option.some_inj.1 hname
    obtain ⟨hindent, hcontains⟩ := hfound
    have htool := List.contains_iff_mem.1 hcontains
    have hne : rest.takeWhile isSpace ≠ [] := fun hnil => hindent (congrArg List.length hnil)
    -- the name is as long as it can be, and the white space before it is not empty
    refine ⟨blank, keyword, rest.takeWhile isSpace, (trimStart rest).dropWhile isWord, hblank,
      hkeyword, hne, List.all_takeWhile, htool, ?_, isRun_of_mem (List.mem_append_right _ htool),
      ?_, startsInWord_dropWhile _⟩
    · have hrest : rest = rest.takeWhile isSpace ++ trimStart rest :=
        List.takeWhile_append_dropWhile.symm
      rw [List.takeWhile_append_dropWhile, List.append_assoc, List.append_assoc, ← hrest, ← hline]
      exact hparts
    · rw [← List.append_assoc]
      exact endsInWord_append_blank hne List.all_takeWhile _
  · rintro ⟨blank, keyword, gap, rest, hblank, hkeyword, hne, hgap, htool, hparts, hrun, -, hends⟩
    have hline : trimStart line = keyword ++ (gap ++ (tool ++ rest)) := by
      rw [hparts, List.append_assoc, List.append_assoc,
        trimStart_append_word hblank (isRun_of_mem (List.mem_append_left _ hkeyword))]
    refine ⟨gap ++ (tool ++ rest), afterKeyword?_eq_some_iff.2 ⟨keyword, hkeyword, hline⟩, ?_⟩
    have hname : (trimStart (gap ++ (tool ++ rest))).takeWhile isWord = tool := by
      rw [trimStart_append_word hgap hrun, takeWhile_isWord hrun hends]
    have hcontains : tools.contains tool = true := List.contains_iff_mem.2 htool
    simp only [hname]
    rw [if_pos ⟨indentation_append_ne_zero hne hgap _, hcontains⟩]

/-! ### The search as a pattern -/

/-- What stands before the name of a tool. -/
def opening : Pattern :=
  .seq (.many isSpace) (.seq (.either (.literal "import") (.literal "from"))
    (.seq (.one isSpace) (.many isSpace)))

/-- The tools that are found on a line, in the order in which the ways to match it are tried: a tool
has to end where a word ends. -/
def matched (line : Text) : List Text :=
  (opening.ends ([], line)).flatMap fun start =>
    tools.flatMap fun tool => ((Pattern.seq (.literal tool) .boundary).ends start).map fun _ => tool

theorem opening_matches_iff {before after : Text} : opening.Matches before t after
    ↔ ∃ blank keyword gap, isBlank blank = true ∧ keyword ∈ keywords ∧ gap ≠ []
      ∧ isBlank gap = true ∧ t = blank ++ (keyword ++ gap) := by
  constructor
  · rintro ⟨blank, _, rfl, hblank, keyword, _, rfl, hkeyword, _, gap, rfl, ⟨c, hc, rfl⟩, hgap⟩
    exact ⟨blank, keyword, c :: gap, List.all_eq_true.2 hblank, List.mem_pair.2 hkeyword,
      List.cons_ne_nil _ _, List.all_eq_true.2 (List.forall_mem_cons.2 ⟨hc, hgap⟩), rfl⟩
  · rintro ⟨blank, keyword, gap, hblank, hkeyword, hne, hgap, rfl⟩
    obtain ⟨c, gap, rfl⟩ := List.exists_cons_of_ne_nil hne
    obtain ⟨hc, hgap⟩ := List.forall_mem_cons.1 (List.all_eq_true.1 hgap)
    exact ⟨blank, _, rfl, List.all_eq_true.1 hblank, keyword, _, rfl, List.mem_pair.1 hkeyword, [c],
      gap, rfl, ⟨c, hc, rfl⟩, hgap⟩

/-- The pattern finds the tools that a line imports: a tool that ends where a word ends is the whole
word. -/
theorem mem_matched_iff : tool ∈ matched line ↔ Imports line tool := by
  simp only [matched, List.mem_flatMap, List.mem_map, Prod.exists, Pattern.mem_ends_iff,
    opening_matches_iff]
  constructor
  · rintro ⟨_, _, ⟨_, rfl, rfl, blank, keyword, gap, hblank, hkeyword, hne, hgap, rfl⟩, tool, htool,
      _, rest, ⟨_, rfl, rfl, hmatch⟩, rfl⟩
    have hrun : IsRun tool := isRun_of_mem (List.mem_append_right _ htool)
    obtain ⟨rfl, hends⟩ := (Pattern.matches_whole_iff hrun).1 hmatch
    refine ⟨blank, keyword, gap, rest, hblank, hkeyword, hne, hgap, htool, rfl, hrun, ?_, hends⟩
    rw [← List.append_assoc]
    exact endsInWord_append_blank hne hgap _
  · rintro ⟨blank, keyword, gap, rest, hblank, hkeyword, hne, hgap, htool, rfl, hrun, -, hends⟩
    exact ⟨_, _, ⟨_, rfl, rfl, blank, keyword, gap, hblank, hkeyword, hne, hgap, rfl⟩, tool, htool,
      _, rest, ⟨tool, rfl, rfl, (Pattern.matches_whole_iff hrun).2 ⟨rfl, hends⟩⟩, rfl⟩

/-- **The tool that a line imports is the first that the pattern finds**, and it finds no other. -/
theorem head?_matched (line : Text) : (matched line).head? = toolOf? line
    ∧ ∀ tool ∈ matched line, toolOf? line = some tool := by
  have hall : ∀ tool ∈ matched line, toolOf? line = some tool := fun tool hmem =>
    toolOf?_eq_some_iff.2 (mem_matched_iff.1 hmem)
  refine ⟨?_, hall⟩
  cases hmatched : matched line with
  | nil =>
      refine (Option.eq_none_iff_forall_ne_some.2 fun tool htool => ?_).symm
      have hmem : tool ∈ matched line := mem_matched_iff.2 (toolOf?_eq_some_iff.1 htool)
      rw [hmatched] at hmem
      cases hmem
  | cons tool others => exact (hall tool (hmatched ▸ List.mem_cons_self)).symm

example : matched "\tfrom  pytest_mock.plugin import mocker" = ["pytest_mock".toList] := by decide

/-! ### The lines of a module -/

theorem pairwise_inLines (lines : List Text) :
    (inLines lines).Pairwise fun first second => first.lineNumber < second.lineNumber := by
  have hnumbers : lines.zipIdx.Pairwise fun first second => first.2 < second.2 := by
    rw [← List.pairwise_map (R := (· < ·)), List.zipIdx_map_snd]
    exact List.pairwise_lt_range'
  refine List.pairwise_filterMap.2 (hnumbers.imp ?_)
  rintro ⟨line, index⟩ ⟨line', index'⟩ hlt finding hfinding finding' hfinding'
  obtain ⟨tool, -, rfl⟩ := Option.map_eq_some_iff.1 hfinding
  obtain ⟨tool', -, rfl⟩ := Option.map_eq_some_iff.1 hfinding'
  exact Nat.succ_lt_succ hlt

/-- What is told of each line is the first tool that the pattern finds on it. -/
theorem inLines_eq_matched (lines : List Text) :
    inLines lines = lines.zipIdx.filterMap fun (line, index) =>
      (matched line).head?.map fun tool => ⟨index + 1, tool⟩ := by
  simp only [(head?_matched _).1]
  rfl

/-- **The imports among the lines of a module** are told once each, in order, with their numbers.
They are what the pattern finds, line by line. -/
theorem inLines_exact (lines : List Text) :
    ((inLines lines).Pairwise fun first second => first.lineNumber < second.lineNumber)
      ∧ (∀ finding, finding ∈ inLines lines ↔ ∃ index line, lines[index]? = some line
          ∧ finding.lineNumber = index + 1 ∧ Imports line finding.tool)
      ∧ inLines lines = lines.zipIdx.filterMap fun (line, index) =>
          (matched line).head?.map fun tool => ⟨index + 1, tool⟩ := by
  refine ⟨pairwise_inLines lines, fun ⟨number, tool⟩ => ?_, inLines_eq_matched lines⟩
  simp only [mem_inLines_iff, Option.bind_eq_some_iff, toolOf?_eq_some_iff]
  exact ⟨fun ⟨index, hnumber, line, hline, htool⟩ => ⟨index, line, hline, hnumber, htool⟩,
    fun ⟨index, line, hline, hnumber, htool⟩ => ⟨index, hnumber, line, hline, htool⟩⟩

end TestImport

end GitHooks
