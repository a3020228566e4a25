/-
**The numbers of lines that are complained about.**

Two hooks tell a user where something stands: one by the line, the other by line and column.  Both
count the lines of a buffer.  These are the physical lines unless a pair of carriage return and line
feed occurs beside a line feed that stands alone; then what stands behind the first lone line feed
gets too low a number, and an import that is not at the beginning of a line of the buffer is not
seen at all.  For imports it is enough that no line feed stands alone.  Findings of spellings never
reach over the end of a line, so of these it can be said exactly when they are reported where they
stand: when there are none behind a lone line feed.

Main definitions:

* `Judgement.ofViolations` — what is found about a file in which there are some violations;
* `Americanise.messagesFrom` — the messages about lines that begin at a number and at a column.

Main results:

* `TestImport.mem_inLines_iff` — the imports among some lines;
* `TestImport.toolOf?_append_return` — a carriage return at the end of a line changes no import;
* `Americanise.messagesFrom_lt_iff`, `Americanise.messagesFrom_eq_iff` — the messages about the
  lines of a buffer and about the physical lines, in step;
* `Hook.physical_line_numbers` — when both hooks tell the numbers of physical lines.
-/

import GitHooks.Hook.Americanise
import GitHooks.Hook.RefuseTestImports
import GitHooks.Proofs.Buffer.PhysicalLines
import GitHooks.Proofs.Spelling

set_option relaxedAutoImplicit false
set_option autoImplicit false

namespace GitHooks

open Text

/-! ### Judgements -/

/-- What is found about a file in which there are some violations. -/
def Judgement.ofViolations (messages : List Text) : Judgement :=
  ⟨[], if messages.isEmpty then .unchanged else .violation messages⟩

theorem Judgement.ofViolations_inj {messages messages' : List Text} :
    ofViolations messages = ofViolations messages' ↔ messages = messages' := by
  cases messages <;> cases messages' <;> simp [ofViolations]

theorem RefuseTestImports.judge_eq (path content : Text) :
    judge path (.ok content)
      = .ok (.ofViolations ((TestImport.inLines (Buffer.parse content).lines).map
          TestImport.Finding.message)) := by
  cases hfound : (TestImport.inLines (Buffer.parse content).lines).map
      TestImport.Finding.message with
  | nil => simp only [judge, bind, Except.bind, hfound]; rfl
  | cons first rest => simp only [judge, bind, Except.bind, hfound]; rfl

theorem Americanise.report_eq (path content : Text) :
    report path (.ok content) = .ok (.ofViolations (messages (Buffer.parse content).lines)) := by
  cases hfound : messages (Buffer.parse content).lines with
  | nil => simp only [report, bind, Except.bind, hfound]; rfl
  | cons first rest => simp only [report, bind, Except.bind, hfound]; rfl

/-! ### Imports -/

namespace TestImport

variable {tool : Text} {lines lines' : List Text}

/-- The imports among some lines are those of the lines with their numbers. -/
theorem mem_inLines_iff {n : Nat} :
    ⟨n, tool⟩ ∈ inLines lines
      ↔ ∃ index, n = index + 1 ∧ lines[index]?.bind toolOf? = some tool := by
  simp only [inLines, List.mem_filterMap, Prod.exists, List.mem_zipIdx_iff_getElem?,
    Option.map_eq_some_iff, Finding.mk.injEq, Option.bind_eq_some_iff]
  constructor
  · rintro ⟨line, index, hline, found, htool, rfl, rfl⟩
    exact ⟨index, rfl, line, hline, htool⟩
  · rintro ⟨index, rfl, line, hline, htool⟩
    exact ⟨line, index, hline, tool, htool, rfl, rfl⟩

theorem inLines_eq_of_map (lines : List Text) :
    inLines lines = (lines.map toolOf?).zipIdx.filterMap fun (tool?, index) =>
      tool?.map fun tool => ⟨index + 1, tool⟩ := by
  rw [List.zipIdx_map, List.filterMap_map]
  rfl

theorem inLines_congr (h : lines.map toolOf? = lines'.map toolOf?) :
    inLines lines = inLines lines' := by
  rw [inLines_eq_of_map, h, ← inLines_eq_of_map]

theorem dropLeading?_append_return {piece : Text} (h : '\r' ∉ piece) (t : Text) :
    dropLeading? piece (t ++ ['\r']) = (dropLeading? piece t).map (· ++ ['\r']) := by
  cases ht : dropLeading? piece t with
  | some rest =>
      rw [dropLeading?_eq_some_iff.1 ht, List.append_assoc]
      exact dropLeading?_append piece _
  | none =>
      rw [dropLeading?_eq_none_iff] at ht
      exact dropLeading?_eq_none_iff.2 fun hp => ht ((prefix_append_cons_iff h).1 hp)

theorem afterKeyword?_append_return (t : Text) :
    afterKeyword? (t ++ ['\r']) = (afterKeyword? t).map (· ++ ['\r']) := by
  rw [afterKeyword?, dropLeading?_append_return (by decide), dropLeading?_append_return (by decide),
    afterKeyword?]
  cases dropLeading? "import" t <;> rfl

/-- A carriage return at the end of a text is trimmed with white space before it. -/
theorem trimStart_append_return (t : Text) :
    trimStart (t ++ ['\r']) = if trimStart t = [] then [] else trimStart t ++ ['\r'] := by
  by_cases ht : trimStart t = []
  · have hblank : isBlank t = true := by
      rw [isBlank_iff_trim_eq_nil, trim, ht, trimEnd_nil]
    rw [if_pos ht, trimStart_append_of_isBlank hblank]
    rfl
  · rw [if_neg ht, trimStart_append ht]

/-- **A carriage return at the end of a line changes no import.** -/
theorem toolOf?_append_return (line : Text) : toolOf? (line ++ ['\r']) = toolOf? line := by
  have hword : isWord '\r' = false := isWord_of_isSpace (by decide)
  rw [toolOf?, toolOf?, trimStart_append_return]
  by_cases hline : trimStart line = []
  · rw [if_pos hline, hline]
  · rw [if_neg hline, afterKeyword?_append_return]
    cases afterKeyword? (trimStart line) with
    | none => rfl
    | some rest =>
        -- the name ends before the carriage return
        have hname : (trimStart (rest ++ ['\r'])).takeWhile isWord
            = (trimStart rest).takeWhile isWord := by
          rw [trimStart_append_return]
          by_cases hrest : trimStart rest = []
          · rw [if_pos hrest, hrest]
          · rw [if_neg hrest, takeWhile_append_cons hword]
        simp only [Option.map_some, Option.bind_some, hname]
        cases rest with
        | nil => rfl
        | cons d rest =>
            have hindent : indentation (d :: rest ++ ['\r']) ≠ 0 ↔ indentation (d :: rest) ≠ 0 := by
              cases hd : isSpace d <;> simp [indentation, hd]
            simp only [hindent]

end TestImport

/-! ### Spellings -/

namespace Americanise

variable {content u : Text} {n m column column' : Nat} {xs ys : List Text}

/-- The messages about a line with a number, of which the columns begin behind others. -/
def messagesOn (column n : Nat) (line : Text) : List Text :=
  (Spelling.check line).map fun finding => (finding.shift column).message (n + 1)

/-- The messages about lines that begin with a number, of which the columns of the first begin
behind others. -/
def messagesFrom (column n : Nat) : List Text → List Text
  | [] => []
  | line :: rest => messagesOn column n line ++ messagesFrom 0 (n + 1) rest

theorem messagesFrom_cons (column n : Nat) (line : Text) (rest : List Text) :
    messagesFrom column n (line :: rest)
      = messagesOn column n line ++ messagesFrom 0 (n + 1) rest := rfl

theorem flatMap_zipIdx_eq_messagesFrom (n : Nat) (lines : List Text) :
    (lines.zipIdx n).flatMap (fun (line, index) =>
      (Spelling.check line).map (Spelling.Finding.message (index + 1)))
      = messagesFrom 0 n lines := by
  induction lines generalizing n with
  | nil => rfl
  | cons line rest ih =>
      rw [List.zipIdx_cons, List.flatMap_cons, ih]
      rfl

theorem messages_eq_messagesFrom (lines : List Text) : messages lines = messagesFrom 0 0 lines :=
  flatMap_zipIdx_eq_messagesFrom 0 lines

/-- A line feed inside a line moves the findings behind it to the right. -/
theorem messagesOn_append_feed (column n : Nat) (u t : Text) :
    messagesOn column n (u ++ '\n' :: t)
      = messagesOn column n u ++ messagesOn (u.length + 1 + column) n t := by
  rw [messagesOn, Spelling.check_append_cons (isWord_of_isSpace (by decide)), List.map_append,
    List.map_map, messagesOn, messagesOn]
  simp only [Function.comp_def, Spelling.Finding.shift_shift]

theorem messagesFrom_modifyHead (column n : Nat) (u line : Text) (rest : List Text) :
    messagesFrom column n ((line :: rest).modifyHead fun t => u ++ '\n' :: t)
      = messagesOn column n u ++ messagesFrom (u.length + 1 + column) n (line :: rest) := by
  rw [List.modifyHead_cons, messagesFrom, messagesOn_append_feed, messagesFrom, List.append_assoc]

theorem messagesOn_append_return (column n : Nat) (u : Text) :
    messagesOn column n (u ++ ['\r']) = messagesOn column n u := by
  rw [messagesOn, Spelling.check_append_return, messagesOn]

/-- A message begins with the number of the line. -/
theorem number_of_message_eq {finding finding' : Spelling.Finding}
    (h : finding.message n = finding'.message m) : n = m := by
  have hdigits : ∀ (k : Nat) (t : Text),
      (ofNat k ++ ':' :: t).takeWhile Char.isDigit = ofNat k := by
    intro k t
    rw [takeWhile_append_cons (by decide)]
    exact List.takeWhile_eq_self_iff.2 fun c hc => isDigit_of_mem_ofNat hc
  have hshape : ∀ (k : Nat) (f : Spelling.Finding), ∃ t, f.message k = ofNat k ++ ':' :: t :=
    fun k f => ⟨_, by simp only [Spelling.Finding.message, List.append_assoc]; rfl⟩
  obtain ⟨t, ht⟩ := hshape n finding
  obtain ⟨t', ht'⟩ := hshape m finding'
  rw [ht, ht'] at h
  have hnumbers : ofNat n = ofNat m := by rw [← hdigits n t, h, hdigits]
  rw [← digitsValue_ofNat n, hnumbers, digitsValue_ofNat]

/-- A line whose messages have different numbers on two lists has no messages. -/
theorem messagesOn_append_eq_iff (hnumber : n ≠ m) :
    messagesOn column n u ++ xs = messagesOn column' m u ++ ys
      ↔ Spelling.check u = [] ∧ xs = ys := by
  cases hcheck : Spelling.check u with
  | nil => simp [messagesOn, hcheck]
  | cons finding others =>
      simp only [messagesOn, hcheck, List.map_cons, List.cons_append, List.cons.injEq]
      constructor
      · rintro ⟨hmessage, -⟩
        exact absurd (Nat.succ.inj (number_of_message_eq hmessage)) hnumber
      · rintro ⟨h, -⟩
        cases h

/-! ### In step -/

/-- Where the lines of the buffer have lower numbers than the physical lines, the messages are the
same only if there are none: the numbers never catch up. -/
theorem messagesFrom_lt_iff (h : n < m) :
    messagesFrom column n (Buffer.linesIn .crlf content) = messagesFrom 0 m (lines content)
      ↔ ∀ line ∈ lines content, Spelling.check line = [] := by
  induction content using Buffer.feed_induction generalizing column n m with
  | unended t ht =>
      by_cases hne : t = []
      · rw [hne]
        simp [Buffer.linesIn, messagesFrom]
      · rw [Buffer.linesIn_crlf_open ht hne, lines_of_not_mem ht hne, messagesFrom_cons,
          messagesFrom_cons, apply_dropReturn (messagesOn_append_return _ _),
          messagesOn_append_eq_iff (Nat.ne_of_lt h)]
        simp [messagesFrom]
  | pair u t hu ih =>
      rw [Buffer.linesIn_crlf_pair hu, lines_pair hu, messagesFrom_cons, messagesFrom_cons,
        messagesOn_append_eq_iff (Nat.ne_of_lt h), ih (Nat.succ_lt_succ h), List.forall_mem_cons]
  | last u hu hreturn =>
      rw [Buffer.linesIn_crlf_last hu hreturn, lines_lone hu hreturn, messagesFrom_cons,
        messagesFrom_cons, messagesOn_append_eq_iff (Nat.ne_of_lt h)]
      simp [messagesFrom]
  | lone u t hu hreturn ht ih =>
      obtain ⟨line, rest, hlines⟩ := Buffer.exists_linesIn_cons .crlf ht
      rw [Buffer.linesIn_crlf_lone hu hreturn ht, lines_lone hu hreturn, hlines,
        messagesFrom_modifyHead, ← hlines, messagesFrom_cons,
        messagesOn_append_eq_iff (Nat.ne_of_lt h), ih (Nat.lt_succ_of_lt h), List.forall_mem_cons]

/-- While the numbers are the same, the messages are the same until the first lone line feed; behind
it there may be none. -/
theorem messagesFrom_eq_iff :
    messagesFrom 0 n (Buffer.linesIn .crlf content) = messagesFrom 0 n (lines content)
      ↔ ∀ back, Buffer.BehindLone content back → ∀ line ∈ lines back, Spelling.check line = [] := by
  induction content using Buffer.feed_induction generalizing n with
  | unended t ht =>
      have hnot : ∀ back, Buffer.BehindLone t back →
          ∀ line ∈ lines back, Spelling.check line = [] :=
        fun back hback => absurd hback (Buffer.not_behindLone_of_not_mem ht back)
      refine iff_of_true ?_ hnot
      by_cases hne : t = []
      · rw [hne]
        rfl
      · rw [Buffer.linesIn_crlf_open ht hne, lines_of_not_mem ht hne, messagesFrom_cons,
          messagesFrom_cons, apply_dropReturn (messagesOn_append_return _ _)]
  | pair u t hu ih =>
      have hmem : '\n' ∉ u ++ ['\r'] := by simpa using hu
      have hbehind : ∀ back, Buffer.BehindLone (u ++ '\r' :: '\n' :: t) back
          ↔ Buffer.BehindLone t back := by
        intro back
        have hiff := Buffer.behindLone_append_feed hmem t back
        simpa using hiff
      rw [Buffer.linesIn_crlf_pair hu, lines_pair hu, messagesFrom_cons, messagesFrom_cons,
        List.append_cancel_left_eq, ih]
      simp only [hbehind]
  | last u hu hreturn =>
      rw [Buffer.linesIn_crlf_last hu hreturn, lines_lone hu hreturn]
      refine iff_of_true rfl fun back hback => ?_
      rcases (Buffer.behindLone_append_feed hu [] back).1 hback with ⟨hne, -⟩ | hback
      · exact absurd rfl hne
      · exact absurd hback (Buffer.not_behindLone_of_not_mem (by simp) back)
  | lone u t hu hreturn ht _ =>
      obtain ⟨line, rest, hlines⟩ := Buffer.exists_linesIn_cons .crlf ht
      rw [Buffer.linesIn_crlf_lone hu hreturn ht, lines_lone hu hreturn, hlines,
        messagesFrom_modifyHead, ← hlines, messagesFrom_cons, List.append_cancel_left_eq,
        messagesFrom_lt_iff (Nat.lt_succ_self n)]
      constructor
      · intro hnone back hback line hline
        rcases (Buffer.behindLone_append_feed hu t back).1 hback with ⟨-, -, rfl⟩ | hback
        · exact hnone line hline
        · obtain ⟨-, front, rfl, -⟩ := hback
          exact hnone line ((lines_suffix front back).subset hline)
      · intro h
        exact h t ((Buffer.behindLone_append_feed hu t t).2 (.inl ⟨ht, hreturn, rfl⟩))

/-- The messages about a file are those about its physical lines exactly when, if a pair occurs,
nothing is found behind a lone line feed. -/
theorem messages_parse_eq_iff :
    messages (Buffer.parse content).lines = messages (lines content)
      ↔ (occursIn "\r\n" content = true → ∀ back, Buffer.BehindLone content back →
          ∀ line ∈ lines back, Spelling.check line = []) := by
  rw [Buffer.lines_parse_eq_linesIn, messages_eq_messagesFrom, messages_eq_messagesFrom]
  cases hpair : occursIn "\r\n" content with
  | true => simp [Newline.ofText_eq_crlf_iff.2 hpair, messagesFrom_eq_iff]
  | false =>
      rw [Newline.ofText_eq_lf_iff.2 hpair, Buffer.linesIn_lf (occursIn_eq_false_iff.1 hpair)]
      simp

end Americanise

/-! ### Both hooks -/

namespace Hook

variable {content : Text}

/-- The imports that are reported above the first lone line feed are those of the physical lines. -/
theorem mem_inLines_parse_iff {front : List Text} (hfront : ∀ line ∈ front, '\n' ∉ line)
    (back : Text) {finding : TestImport.Finding} (hnumber : finding.lineNumber ≤ front.length) :
    finding ∈ TestImport.inLines (Buffer.parse (Buffer.paired front ++ back)).lines
      ↔ finding ∈ TestImport.inLines (lines (Buffer.paired front ++ back)) := by
  obtain ⟨n, tool⟩ := finding
  rw [TestImport.mem_inLines_iff, TestImport.mem_inLines_iff]
  refine exists_congr fun index => and_congr_right fun hindex => ?_
  have hlt : index < front.length := by
    rw [hindex] at hnumber
    exact hnumber
  rw [Buffer.getElem?_lines_parse hfront back hlt]

/-- **When line numbers are those of physical lines.**  Imports of test tools are reported with the
numbers of their physical lines where no line feed stands alone beside a pair, and in any case above
the first that does; spellings are reported with line and column of the physical line exactly when
nothing is found behind a line feed that stands alone beside a pair. -/
theorem physical_line_numbers (path content : Text) :
    ((occursIn "\r\n" content = true → ∀ back, ¬ Buffer.BehindLone content back) →
      RefuseTestImports.judge path (.ok content)
        = .ok (.ofViolations ((TestImport.inLines (lines content)).map
            TestImport.Finding.message)))
    ∧ (∀ front back, content = Buffer.paired front ++ back → (∀ line ∈ front, '\n' ∉ line) →
        ∀ finding : TestImport.Finding, finding.lineNumber ≤ front.length →
          (finding ∈ TestImport.inLines (Buffer.parse content).lines
            ↔ finding ∈ TestImport.inLines (lines content)))
    ∧ (Americanise.report path (.ok content)
          = .ok (.ofViolations (Americanise.messages (lines content)))
        ↔ (occursIn "\r\n" content = true → ∀ back, Buffer.BehindLone content back →
            ∀ line ∈ lines back, Spelling.check line = [])) := by
  refine ⟨fun halone => ?_, ?_, ?_⟩
  · have htools := Buffer.map_lines_parse TestImport.toolOf?_append_return halone
    rw [RefuseTestImports.judge_eq, TestImport.inLines_congr htools]
  · rintro front back rfl hfront finding hnumber
    exact mem_inLines_parse_iff hfront back hnumber
  · rw [Americanise.report_eq, ← Americanise.messages_parse_eq_iff]
    constructor
    · exact fun h => Judgement.ofViolations_inj.1 (Except.ok.inj h)
    · exact fun h => congrArg Except.ok (Judgement.ofViolations_inj.2 h)

theorem physical_line_numbers_pairs :
    RefuseTestImports.judge "core.py" (.ok "import os\r\nimport pytest\r\n")
      = .ok (.ofViolations ["2: imports test tool 'pytest'"]) := by
  have halone : ∀ back, ¬ Buffer.BehindLone "import os\r\nimport pytest\r\n" back := by
    intro back hback
    have hfirst : '\n' ∉ ("import os\r" : Text) := by decide
    have hsecond : '\n' ∉ ("import pytest\r" : Text) := by decide
    rcases (Buffer.behindLone_append_feed hfirst "import pytest\r\n" back).1 hback with
      ⟨-, hreturn, -⟩ | hback
    · exact hreturn ⟨"import os", rfl⟩
    · rcases (Buffer.behindLone_append_feed hsecond [] back).1 hback with ⟨hne, -⟩ | hback
      · exact hne rfl
      · exact Buffer.not_behindLone_of_not_mem (by simp) back hback
  have hfound : (TestImport.inLines (lines "import os\r\nimport pytest\r\n")).map
      TestImport.Finding.message = [("2: imports test tool 'pytest'" : Text)] := by decide +kernel
  rw [← hfound]
  exact (physical_line_numbers "core.py" "import os\r\nimport pytest\r\n").1 fun _ => halone

/-- In a file of three lines, of which only the second is ended by a line feed alone, the import on
the third is not reported. -/
theorem not_physical_line_numbers :
    ¬ ∀ path content : Text,
      RefuseTestImports.judge path (.ok content)
          = .ok (.ofViolations ((TestImport.inLines (lines content)).map
              TestImport.Finding.message))
        ∧ Americanise.report path (.ok content)
          = .ok (.ofViolations (Americanise.messages (lines content))) := by
  intro h
  have hjudge := (h "core.py" "import os\r\nx = 1\nimport pytest\r\n").1
  rw [RefuseTestImports.judge_eq] at hjudge
  exact absurd (Judgement.ofViolations_inj.1 (Except.ok.inj hjudge)) (by decide)

end Hook

end GitHooks
