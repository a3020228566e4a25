/-
**What is found on a line.**

The findings of a line are its words that are in the table: whole words, in any case, with a plural
ending or without.  Nothing else is found, and no such word is passed over.  A word can be taken
apart into a spelling and an ending in one way only, since no spelling of the table ends like a
plural, and no spelling stands in the table twice; so the word alone tells what is suggested for it.

Main definitions:

* `Spelling.IsCased` — a spelling in the case of a word.

Main results:

* `Spelling.isCased_iff` — the case that a suggestion is put into;
* `Spelling.suggestion?_eq_some_iff` — the words for which there is a suggestion;
* `Spelling.mem_checkRuns_iff` — what is found are the words with a suggestion, where they stand;
* `Spelling.check_exact` — the findings of a line.
-/

import GitHooks.Proofs.Spelling.Corrected

set_option relaxedAutoImplicit false
set_option autoImplicit false

namespace GitHooks

namespace Spelling

open Text

variable {line run word spelling cased suggestion ending : Text} {pair : Pair} {finding : Finding}

/-! ### Case -/

/-- A spelling in the case of a word. -/
inductive IsCased (word spelling : Text) : Text → Prop
  /-- All of the word is upper case. -/
  | upper : (∀ c ∈ word, isUpper c = true) → IsCased word spelling (spelling.map Char.toUpper)
  /-- The first letter of the word is upper case, and no other. -/
  | capital {first : Char} {rest : Text} : word = first :: rest → isUpper first = true →
      (∀ c ∈ rest, isUpper c = false) → IsCased word spelling (capitalize spelling)
  /-- Neither is so. -/
  | small : (∃ c ∈ word, isUpper c = false) →
      (∀ first rest, word = first :: rest → isUpper first = true → ∃ c ∈ rest, isUpper c = true) →
      IsCased word spelling spelling

/-- Every word puts a spelling into some case. -/
theorem exists_isCased (word spelling : Text) : ∃ cased, IsCased word spelling cased := by
  by_cases hupper : ∀ c ∈ word, isUpper c = true
  · exact ⟨_, .upper hupper⟩
  · by_cases hcapital : ∃ first rest, word = first :: rest ∧ isUpper first = true
        ∧ ∀ c ∈ rest, isUpper c = false
    · obtain ⟨first, rest, hword, hfirst, hrest⟩ := hcapital
      exact ⟨_, .capital hword hfirst hrest⟩
    · refine ⟨_, .small ?_ fun first rest hword hfirst => ?_⟩
      · simpa using hupper
      · refine Classical.byContradiction fun hnone => hcapital ⟨first, rest, hword, hfirst, ?_⟩
        simpa using hnone

/-- A word of at least two letters puts a spelling into no case but one. -/
theorem IsCased.eq_matchCase (h : IsCased word spelling cased) (hlength : 2 ≤ word.length) :
    cased = matchCase word spelling := by
  obtain ⟨first, second, rest, rfl⟩ : ∃ first second rest, word = first :: second :: rest := by
    match word, hlength with
    | first :: second :: rest, _ => exact ⟨first, second, rest, rfl⟩
  rcases h with hupper | ⟨hword, hfirst, hrest⟩ | ⟨⟨d, hd, hdlower⟩, hother⟩
  · obtain ⟨hfirst, hrest⟩ := List.forall_mem_cons.1 hupper
    have hall : (second :: rest).all isUpper = true := List.all_eq_true.2 hrest
    simp [matchCase, hfirst, hall]
  · obtain ⟨rfl, rfl⟩ := List.cons.inj hword
    have hsecond : (second :: rest).all isUpper = false :=
      List.all_eq_false.2 ⟨second, List.mem_cons_self, by simp [hrest]⟩
    have hnone : (second :: rest).all (fun c => !isUpper c) = true :=
      List.all_eq_true.2 fun c hc => by simp [hrest c hc]
    simp only [matchCase, hfirst, hsecond, hnone, Bool.and_false, if_true, Bool.false_eq_true,
      if_false]
  · cases hfirst : isUpper first with
    | false => simp [matchCase, hfirst]
    | true =>
        obtain ⟨c, hc, hcupper⟩ := hother first _ rfl hfirst
        have hmem : d ∈ second :: rest := by
          rcases List.mem_cons.1 hd with rfl | hd
          · rw [hfirst] at hdlower
            cases hdlower
          · exact hd
        have hnotall : (second :: rest).all isUpper = false :=
          List.all_eq_false.2 ⟨d, hmem, by simp [hdlower]⟩
        have hsome : (second :: rest).all (fun c => !isUpper c) = false :=
          List.all_eq_false.2 ⟨c, hc, by simp [hcupper]⟩
        simp only [matchCase, hfirst, hnotall, hsome, Bool.and_false, if_true, Bool.false_eq_true,
          if_false]

/-- The case that a suggestion is put into. -/
theorem isCased_iff (hlength : 2 ≤ word.length) :
    IsCased word spelling cased ↔ cased = matchCase word spelling := by
  constructor
  · exact fun h => h.eq_matchCase hlength
  · rintro rfl
    obtain ⟨cased, hcased⟩ := exists_isCased word spelling
    rwa [← hcased.eq_matchCase hlength]

/-! ### Words of the table -/

/-- No spelling stands in the table twice. -/
theorem find?_dictionary : ∀ pair ∈ dictionary,
    dictionary.find? (fun other => other.found = pair.found) = some pair := by decide

theorem two_le_length_found : ∀ pair ∈ dictionary, 2 ≤ pair.found.length := by decide

theorem counterpart?_eq_some (hpair : pair ∈ dictionary) (hword : word.map lower = pair.found) :
    counterpart? word = some (matchCase word pair.wanted) := by
  rw [counterpart?, hword, find?_dictionary pair hpair, Option.map_some]

/-- **The words for which there is a suggestion** are the spellings of the table in any case, with
an ending or without, and the suggestion is the counterpart in the case of the word, with the
ending. -/
theorem suggestion?_eq_some_iff : suggestion? run = some suggestion ↔
    ∃ word ending cased, ∃ pair ∈ dictionary, run = word ++ ending ∧ IsEnding ending
      ∧ word.map lower = pair.found ∧ IsCased word pair.wanted cased
      ∧ suggestion = cased ++ ending := by
  have hlength : ∀ {word : Text} {pair : Pair}, pair ∈ dictionary → word.map lower = pair.found →
      2 ≤ word.length := by
    intro word pair hpair hword
    rw [← List.length_map (f := lower), hword]
    exact two_le_length_found pair hpair
  constructor
  · intro h
    obtain ⟨pair, hpair, word, ending, rfl, hending, hfound, rfl⟩ := exists_of_suggestion? h
    exact ⟨word, ending, matchCase word pair.wanted, pair, hpair, rfl, hending, hfound.symm,
      (isCased_iff (hlength hpair hfound.symm)).2 rfl, rfl⟩
  · rintro ⟨word, ending, cased, pair, hpair, rfl, hending, hword, hcased, rfl⟩
    rw [(isCased_iff (hlength hpair hword)).1 hcased]
    have hcounterpart := counterpart?_eq_some hpair hword
    rcases hending with rfl | ⟨c, rfl, hc⟩
    · rw [List.append_nil, List.append_nil, suggestion?, hcounterpart, Option.some_or]
    · rw [suggestion?_concat hc, hcounterpart, Option.map_some]

/-! ### Words of a line -/

/-- **What is found are the words with a suggestion**, each where it stands. -/
theorem mem_checkRuns_iff (column : Nat) (line : Text) : finding ∈ checkRuns column (runs line) ↔
    ∃ before word after suggestion, IsWordIn line before word after
      ∧ suggestion? word = some suggestion
      ∧ finding = ⟨column + before.length, word, suggestion⟩ := by
  induction line using word_induction generalizing column with
  | nil =>
      refine ⟨fun h => absurd h List.not_mem_nil, ?_⟩
      rintro ⟨before, word, after, suggestion, hword, -⟩
      exact absurd hword not_isWordIn_nil
  | gap c t hc ih =>
      rw [checkRuns_runs_cons hc, ih]
      constructor
      · rintro ⟨front, word, after, suggestion, hword, hs, rfl⟩
        refine ⟨c :: front, word, after, suggestion, (isWordIn_cons hc).2 ⟨front, rfl, hword⟩, hs,
          ?_⟩
        rw [List.length_cons, Nat.add_right_comm, Nat.add_assoc]
      · rintro ⟨before, word, after, suggestion, hword, hs, rfl⟩
        obtain ⟨front, rfl, hrest⟩ := (isWordIn_cons hc).1 hword
        refine ⟨front, word, after, suggestion, hrest, hs, ?_⟩
        rw [List.length_cons, Nat.add_right_comm, Nat.add_assoc]
  | word u t hu ht ih =>
      have hmem : finding ∈ checkRuns column (runs (u ++ t)) ↔
          (∃ suggestion, suggestion? u = some suggestion ∧ finding = ⟨column, u, suggestion⟩)
            ∨ finding ∈ checkRuns (column + u.length) (runs t) := by
        rw [runs_append hu ht]
        simp only [checkRuns]
        cases suggestion? u with
        | none => simp
        | some suggestion => simp
      rw [hmem, ih]
      constructor
      · rintro (⟨suggestion, hs, rfl⟩ | ⟨front, word, after, suggestion, hword, hs, rfl⟩)
        · exact ⟨[], u, t, suggestion, (isWordIn_append hu ht).2 (.inl ⟨rfl, rfl, rfl⟩), hs, rfl⟩
        · refine ⟨u ++ front, word, after, suggestion,
            (isWordIn_append hu ht).2 (.inr ⟨front, rfl, hword⟩), hs, ?_⟩
          rw [List.length_append, Nat.add_assoc]
      · rintro ⟨before, word, after, suggestion, hword, hs, rfl⟩
        rcases (isWordIn_append hu ht).1 hword with ⟨rfl, rfl, rfl⟩ | ⟨front, rfl, hrest⟩
        · exact .inl ⟨suggestion, hs, rfl⟩
        · refine .inr ⟨front, word, after, suggestion, hrest, hs, ?_⟩
          rw [List.length_append, Nat.add_assoc]

/-- **The findings of a line**, from left to right, are exactly its words that are a spelling of the
table in any case, with a plural ending or without.  A finding tells the column of the word, counted
in characters from one, and the word; it suggests the counterpart in the table, in the case of the
word, with the ending that the word has. -/
theorem check_exact (line : Text) :
    ((check line).Pairwise fun first second => first.column < second.column)
      ∧ ∀ finding, finding ∈ check line ↔
        ∃ before word ending after cased, ∃ pair ∈ dictionary,
          IsWordIn line before (word ++ ending) after ∧ IsEnding ending
            ∧ word.map lower = pair.found ∧ IsCased word pair.wanted cased
            ∧ finding = ⟨before.length + 1, word ++ ending, cased ++ ending⟩ := by
  rw [check_eq_checkRuns]
  constructor
  · refine (pairwise_checkRuns 1 (runs line)).imp_of_mem fun {first second} hfirst _ hle => ?_
    obtain ⟨before, word, after, suggestion, hword, -, rfl⟩ := (mem_checkRuns_iff 1 line).1 hfirst
    have hpos : 0 < word.length := List.length_pos_iff.2 hword.run.ne_nil
    exact Nat.lt_of_lt_of_le (Nat.lt_add_of_pos_right hpos) hle
  · intro finding
    rw [mem_checkRuns_iff]
    constructor
    · rintro ⟨before, run, after, suggestion, hword, hs, rfl⟩
      obtain ⟨word, ending, cased, pair, hpair, rfl, hending, hfound, hcased, rfl⟩ :=
        suggestion?_eq_some_iff.1 hs
      refine ⟨before, word, ending, after, cased, pair, hpair, hword, hending, hfound, hcased, ?_⟩
      rw [Nat.add_comm]
    · rintro ⟨before, word, ending, after, cased, pair, hpair, hword, hending, hfound, hcased, rfl⟩
      refine ⟨before, word ++ ending, after, cased ++ ending, hword, ?_, ?_⟩
      · exact suggestion?_eq_some_iff.2 ⟨word, ending, cased, pair, hpair, rfl, hending, hfound,
          hcased, rfl⟩
      · rw [Nat.add_comm]

end Spelling

end GitHooks
