/-
**The declaration of an encoding.**

A reader of Python looks for the declaration of a file's encoding on the first two lines.  What has
to stay first in a file is a shebang and, directly behind it, a declaration; a declaration on the
second line that does not stand behind a shebang is not among these lines.  So what is added to a
file leaves a declaration effective where it is the first line or stands behind a shebang, and
pushes it down where the first line is blank or an ordinary comment.

Main results:

* `Notice.take_add` — the lines that have to stay first stay first;
* `Notice.declaration_kept_iff` — which declarations stay effective whatever is added;
* `Notice.not_declaration_kept` — one behind a comment does not.
-/

import GitHooks.Proofs.Notice.Insert

set_option relaxedAutoImplicit false
set_option autoImplicit false

namespace GitHooks

/-! ### Declarations in the preamble -/

namespace Header

variable {lines : List Text} {pragma : Text}

/-- Only two lines have to stay first. -/
theorem preambleLength_le_two (lines : List Text) : preambleLength lines ≤ 2 :=
  Nat.add_le_add (Bool.toNat_le _) (Bool.toNat_le _)

/-- A declaration that is the first line, or the second one behind a shebang, has to stay first. -/
theorem mem_take_preambleLength (hpragma : isEncodingPragma pragma = true)
    (hmem : pragma ∈ lines.take 2)
    (hfirst : lines.head? = some pragma ∨ beginsWithShebang lines = true) :
    pragma ∈ lines.take (preambleLength lines) := by
  cases lines with
  | nil => simp at hmem
  | cons first rest =>
      by_cases heq : pragma = first
      · -- the first line stays, as a shebang or as a declaration
        have hpos : preambleLength (first :: rest) ≠ 0 := by
          rw [preambleLength]
          cases hs : beginsWithShebang (first :: rest) with
          | true => simp
          | false => simpa [beginsWithPragma, ← heq] using hpragma
        obtain ⟨n, hn⟩ := Nat.exists_eq_succ_of_ne_zero hpos
        rw [hn, List.take_succ_cons, heq]
        exact List.mem_cons_self
      · have hs : beginsWithShebang (first :: rest) = true := by
          refine hfirst.resolve_left fun hhead => heq ?_
          exact (Option.some.inj hhead).symm
        cases rest with
        | nil => simp [heq] at hmem
        | cons second rest =>
            obtain rfl : pragma = second := by simpa [heq] using hmem
            have htwo : preambleLength (first :: pragma :: rest) = 2 := by
              simp [preambleLength, hs, beginsWithPragma, hpragma]
            rw [htwo]
            exact hmem

end Header

namespace Notice

open Text
open Header

variable {language : Language} {lines : List Text} {settings : NoticeSettings} {year : Int}
  {edit : Edit} {pragma : Text}

/-! ### What is added -/

/-- **The lines that have to stay first** stay first, whatever is added to a file. -/
theorem take_add (h : add lines settings language year = Except.ok edit) :
    edit.lines.take (preambleLength lines) = lines.take (preambleLength lines) := by
  cases hn : (find language lines).notice with
  | some notice =>
      have hsome : (find language lines).notice.isSome = true := by rw [hn]; rfl
      rw [add, if_pos hsome] at h
      obtain rfl := Except.ok.inj h
      rfl
  | none =>
      obtain ⟨tail, -, hlines⟩ := exists_of_add hn h
      rw [hlines, take_preambleOf]

/-- The notice of a name in the standard format, as a comment of a Python file. -/
theorem inserted_plain (body : List Text) :
    inserted ⟨"Ada", NoticeFormat.standard, false⟩ Language.python 2024 body
      = Except.ok (("# Copyright (c) 2024 Ada" : Text) :: separated body) := rfl

theorem not_mem_take_separated {line : Text} (hline : pragma ≠ line) (hblank : pragma ≠ [])
    (body : List Text) : pragma ∉ (line :: separated body).take 2 := by
  rw [separated]
  split <;> simp [hline, hblank]

/-- A declaration that does not have to stay first is pushed down by an ordinary notice. -/
theorem not_mem_take_add (hn : (find Language.python lines).notice = none)
    (hpragma : isEncodingPragma pragma = true) (hhead : lines.head? ≠ some pragma)
    (hshebang : beginsWithShebang lines = false)
    (h : add lines ⟨"Ada", NoticeFormat.standard, false⟩ Language.python 2024 = Except.ok edit) :
    pragma ∉ edit.lines.take 2 := by
  have hnotice : pragma ≠ "# Copyright (c) 2024 Ada" := by
    rintro rfl
    exact absurd hpragma (by decide)
  have hblank : pragma ≠ [] := by
    rintro rfl
    exact absurd hpragma (by decide)
  obtain ⟨tail, htail, hlines⟩ := exists_of_add hn h
  obtain rfl := Except.ok.inj ((inserted_plain _).symm.trans htail)
  rw [hlines]
  cases hfirst : beginsWithPragma lines with
  | false =>
      have hzero : preambleLength lines = 0 := by
        simp [preambleLength, hshebang, hfirst]
      rw [preambleOf_of_eq_zero hzero]
      exact not_mem_take_separated hnotice hblank _
  | true =>
      -- a declaration on the first line is the whole preamble
      have hone : preambleLength lines = 1 := by
        simp [preambleLength, hshebang, hfirst]
      cases lines with
      | nil => simp [beginsWithPragma] at hfirst
      | cons first rest =>
          have hne : pragma ≠ first := by
            rintro rfl
            exact hhead rfl
          rw [preambleOf_of_ne_zero (by omega), hone]
          simp [hne, hblank]

/-- **Which declarations stay effective.**  A declaration on the first or the second line of a
Python file stays on one of them, whatever notice is added, exactly when the file has a notice
already, or the declaration is the first line, or the first line is a shebang. -/
theorem declaration_kept_iff (hpragma : isEncodingPragma pragma = true)
    (hmem : pragma ∈ lines.take 2) :
    (∀ settings year edit, add lines settings Language.python year = Except.ok edit →
        pragma ∈ edit.lines.take 2)
      ↔ (find Language.python lines).notice.isSome = true ∨ lines.head? = some pragma
        ∨ beginsWithShebang lines = true := by
  constructor
  · intro hkept
    refine Decidable.byContradiction fun hnot => ?_
    rw [not_or, not_or, Bool.not_eq_true, Bool.not_eq_true] at hnot
    obtain ⟨hnone, hhead, hshebang⟩ := hnot
    have hn : (find Language.python lines).notice = none := by simpa using hnone
    have hadd := add_of_none hn (inserted_plain (bodyOf (lines.drop (preambleLength lines))))
    exact not_mem_take_add hn hpragma hhead hshebang hadd (hkept _ _ _ hadd)
  · rintro (hsome | hfirst) settings year edit hadd
    · rw [add, if_pos hsome] at hadd
      obtain rfl := Except.ok.inj hadd
      exact hmem
    · have hstays := mem_take_preambleLength hpragma hmem hfirst
      rw [← take_add hadd] at hstays
      exact (List.take_subset_take_left _ (preambleLength_le_two lines)) hstays

/-- Behind a shebang a declaration stays on the second line. -/
theorem declaration_kept_behind_shebang :
    isEncodingPragma "# coding: latin-1" = true
      ∧ ("# coding: latin-1" : Text)
        ∈ (["#!/usr/bin/python", "# coding: latin-1"] : List Text).take 2
      ∧ ∀ settings year edit,
          add ["#!/usr/bin/python", "# coding: latin-1"] settings Language.python year
            = Except.ok edit → ("# coding: latin-1" : Text) ∈ edit.lines.take 2 := by
  have hpragma : isEncodingPragma "# coding: latin-1" = true := by decide
  have hmem : ("# coding: latin-1" : Text)
      ∈ (["#!/usr/bin/python", "# coding: latin-1"] : List Text).take 2 := by decide
  exact ⟨hpragma, hmem, (declaration_kept_iff hpragma hmem).2 (Or.inr (Or.inr (by decide)))⟩

/-- Behind an ordinary comment a declaration does not stay on the second line: the notice is put
before both. -/
theorem not_declaration_kept :
    ¬ ∀ (lines : List Text) (index : Nat) (pragma : Text), index < 2 →
        lines[index]? = some pragma → isEncodingPragma pragma = true →
        (index = 1 → ∀ first, lines[0]? = some first →
          isBlank first = true ∨ startsWith first "#" = true) →
        ∀ settings year edit, add lines settings Language.python year = Except.ok edit →
        pragma ∈ edit.lines.take 2 := by
  intro h
  let lines : List Text := ["# tools", "# coding: latin-1", "x = 1"]
  have hn : (find Language.python lines).notice = none := by decide +kernel
  have hadd := add_of_none hn (inserted_plain (bodyOf (lines.drop (preambleLength lines))))
  have hfirst : ∀ first, lines[0]? = some first →
      isBlank first = true ∨ startsWith first "#" = true := by
    intro first hfirst
    obtain rfl := Option.some.inj hfirst
    exact Or.inr (by decide)
  exact not_mem_take_add hn (by decide) (by decide) (by decide) hadd
    (h lines 1 "# coding: latin-1" (by decide) rfl (by decide) (fun _ => hfirst) _ _ _ hadd)

end Notice

end GitHooks
