/-
**Whole words looked up.**

A search for whole words can be told without a pattern: a line falls apart into its words and the
gaps between them, and each word is looked up in the table, as it stands and without a plural
ending.  Both cannot succeed, since no spelling of the table ends like a plural.

Main definitions:

* `Spelling.IsEnding` — the endings that a word is found with;
* `Spelling.suggestion?` — the suggestion for a run of word characters;
* `Spelling.checkRuns`, `Spelling.correctRuns` — the findings among some runs, and the runs with
  all of them corrected;
* `Spelling.endsLikePlural` — whether a spelling ends like a plural.

Main results:

* `Spelling.suggestion?_eq_none` — there are suggestions for words only;
* `Spelling.checkRuns_runs_cons`, `Spelling.correctRuns_runs_cons` — a character that is part of no
  word;
* `Spelling.exists_of_suggestion?` — where a suggestion comes from;
* `Spelling.suggestion?_concat` — the suggestion for a word with an ending.
-/

import GitHooks.Proofs.Text.Decimal
import GitHooks.Proofs.Text.Words
import GitHooks.Spelling

set_option relaxedAutoImplicit false
set_option autoImplicit false

namespace GitHooks

namespace Spelling

open Text

variable {pair : Pair} {run word suggestion : Text} {c : Char}

/-! ### The look-up -/

/-- Whether a character is a plural ending. -/
def isPlural (c : Char) : Bool := c == 's' || c == 'S' || c == longS

/-- The endings that a word is found with: none, or that of a plural. -/
def IsEnding (ending : Text) : Prop := ending = [] ∨ ∃ c, ending = [c] ∧ isPlural c = true

/-- The suggestion for a word with a plural ending. -/
def pluralSuggestion? (run : Text) : Option Text :=
  match run.getLast? with
  | some ending =>
    if isPlural ending then (counterpart? run.dropLast).map (· ++ [ending]) else none
  | none => none

/-- The suggestion for a run of word characters. -/
def suggestion? (run : Text) : Option Text := (counterpart? run).or (pluralSuggestion? run)

/-- The findings among some runs, the first of which begins at a column. -/
def checkRuns (column : Nat) : List Text → List Finding
  | [] => []
  | run :: rest =>
    let others := checkRuns (column + run.length) rest
    match suggestion? run with
    | some suggestion => ⟨column, run, suggestion⟩ :: others
    | none => others

/-- Some runs with every finding among them corrected. -/
def correctRuns (rs : List Text) : Text := rs.flatMap fun run => (suggestion? run).getD run

theorem correctRuns_cons (run : Text) (rest : List Text) :
    correctRuns (run :: rest) = (suggestion? run).getD run ++ correctRuns rest :=
  List.flatMap_cons

theorem checkRuns_cons (column : Nat) (run : Text) (rest : List Text) :
    checkRuns column (run :: rest)
      = ((suggestion? run).map fun suggestion => ⟨column, run, suggestion⟩).toList
        ++ checkRuns (column + run.length) rest := by
  simp only [checkRuns]
  cases suggestion? run with
  | none => rfl
  | some suggestion => rfl

theorem checkRuns_cons_of_none (h : suggestion? run = none) (column : Nat) (rest : List Text) :
    checkRuns column (run :: rest) = checkRuns (column + run.length) rest := by
  simp only [checkRuns, h]

/-! ### Suggestions are for words -/

/-- The spellings of the table are written with the small letters of ASCII. -/
theorem letters_of_mem_dictionary : ∀ pair ∈ dictionary,
    pair.found.all (fun c => 97 ≤ c.toNat && c.toNat ≤ 122) = true := by decide

theorem isAlphanum_of_toNat
    (h : (65 ≤ c.toNat ∧ c.toNat ≤ 90) ∨ (97 ≤ c.toNat ∧ c.toNat ≤ 122)) :
    c.isAlphanum = true := by
  change (c.isUpper || c.isLower || c.isDigit) = true
  rcases h with ⟨hA, hZ⟩ | ⟨ha, hz⟩
  · have hupper : c.isUpper = true :=
      decide_eq_true ⟨UInt32.le_iff_toNat_le.2 hA, UInt32.le_iff_toNat_le.2 hZ⟩
    rw [hupper, Bool.true_or, Bool.true_or]
  · have hlower : c.isLower = true :=
      Bool.and_eq_true_iff.2 ⟨decide_eq_true (UInt32.le_iff_toNat_le.2 ha),
        decide_eq_true (UInt32.le_iff_toNat_le.2 hz)⟩
    rw [hlower, Bool.or_true, Bool.true_or]

/-- What has a small letter of ASCII for its lower case is part of words. -/
theorem isWord_of_lower (h : 97 ≤ (lower c).toNat ∧ (lower c).toNat ≤ 122) : isWord c = true := by
  by_cases hk : c = kelvinSign
  · rw [hk]
    decide +kernel
  · rw [lower, if_neg hk] at h
    have hc : (65 ≤ c.toNat ∧ c.toNat ≤ 90) ∨ (97 ≤ c.toNat ∧ c.toNat ≤ 122) := by
      by_cases hcapital : 65 ≤ c.toNat ∧ c.toNat ≤ 90
      · exact .inl hcapital
      · rw [toLower_eq_self hcapital] at h
        exact .inr h
    rw [isWord, if_pos (by omega), isAlphanum_of_toNat hc, Bool.true_or]

theorem counterpart?_eq_none (hc : isWord c = false) (hmem : c ∈ run) :
    counterpart? run = none := by
  rw [counterpart?, Option.map_eq_none_iff, List.find?_eq_none]
  intro pair hpair hfound
  have hlower : lower c ∈ pair.found := by
    rw [of_decide_eq_true hfound]
    exact List.mem_map_of_mem hmem
  have hletter := List.all_eq_true.1 (letters_of_mem_dictionary pair hpair) _ hlower
  rw [isWord_of_lower (by simpa using hletter)] at hc
  cases hc

theorem isWord_of_isPlural (h : isPlural c = true) : isWord c = true := by
  simp only [isPlural, Bool.or_eq_true, beq_iff_eq] at h
  rcases h with (rfl | rfl) | rfl <;> decide

/-- A run with a character that is part of no word has no suggestion. -/
theorem suggestion?_eq_none (hc : isWord c = false) (hmem : c ∈ run) : suggestion? run = none := by
  have hplural : pluralSuggestion? run = none := by
    rw [pluralSuggestion?]
    cases hlast : run.getLast? with
    | none => rfl
    | some ending =>
        by_cases hending : isPlural ending = true
        · obtain ⟨front, rfl⟩ := List.getLast?_eq_some_iff.1 hlast
          have hne : c ≠ ending := by
            rintro rfl
            rw [isWord_of_isPlural hending] at hc
            cases hc
          have hfront : c ∈ front := by simpa [hne] using hmem
          simp [hending, counterpart?_eq_none hc hfront]
        · exact if_neg hending
  rw [suggestion?, counterpart?_eq_none hc hmem, hplural]
  rfl

/-! ### Gaps -/

/-- A character that is part of no word only moves what stands behind it. -/
theorem checkRuns_runs_cons (hc : isWord c = false) (column : Nat) (t : Text) :
    checkRuns column (runs (c :: t)) = checkRuns (column + 1) (runs t) := by
  rw [runs]
  cases hruns : runs t with
  | nil =>
      exact checkRuns_cons_of_none (suggestion?_eq_none hc (List.mem_singleton_self c)) column []
  | cons run rest =>
      cases run with
      | nil =>
          exact checkRuns_cons_of_none (suggestion?_eq_none hc (List.mem_singleton_self c)) column _
      | cons d run =>
          rw [consRun]
          by_cases hd : isWord c = isWord d
          · -- both belong to a gap
            have hgap : isWord d = false := hd.symm.trans hc
            rw [if_pos hd, checkRuns_cons_of_none (suggestion?_eq_none hc List.mem_cons_self),
              checkRuns_cons_of_none (suggestion?_eq_none hgap List.mem_cons_self)]
            simp only [List.length_cons]
            congr 1
            omega
          · rw [if_neg hd]
            exact checkRuns_cons_of_none
              (suggestion?_eq_none hc (List.mem_singleton_self c)) column _

/-- A character that is part of no word is kept. -/
theorem correctRuns_runs_cons (hc : isWord c = false) (t : Text) :
    correctRuns (runs (c :: t)) = c :: correctRuns (runs t) := by
  have hkept : ∀ run, c ∈ run → (suggestion? run).getD run = run := by
    intro run hmem
    rw [suggestion?_eq_none hc hmem, Option.getD_none]
  rw [correctRuns, correctRuns, runs]
  cases hruns : runs t with
  | nil => simp [consRun, hkept]
  | cons run rest =>
      cases run with
      | nil => simp [consRun, hkept]
      | cons d run =>
          rw [consRun]
          split
          · next hd =>
            -- both belong to a gap
            have hgap : suggestion? (d :: run) = none :=
              suggestion?_eq_none (hd.symm.trans hc) List.mem_cons_self
            simp [hkept, hgap]
          · simp [hkept]

/-! ### Where a suggestion comes from -/

theorem exists_of_counterpart? (h : counterpart? word = some suggestion) :
    ∃ pair ∈ dictionary, pair.found = word.map lower ∧ suggestion = matchCase word pair.wanted := by
  obtain ⟨pair, hpair, rfl⟩ := Option.map_eq_some_iff.1 h
  have hfound := List.find?_some hpair
  exact ⟨pair, List.mem_of_find?_eq_some hpair, of_decide_eq_true hfound, rfl⟩

theorem counterpart?_eq_none_iff :
    counterpart? word = none ↔ ∀ pair ∈ dictionary, pair.found ≠ word.map lower := by
  simp [counterpart?]

/-- A suggestion is the counterpart of a word in the table, in the case of the word, with the ending
that the word has. -/
theorem exists_of_suggestion? (h : suggestion? run = some suggestion) :
    ∃ pair ∈ dictionary, ∃ word ending, run = word ++ ending ∧ IsEnding ending
      ∧ pair.found = word.map lower ∧ suggestion = matchCase word pair.wanted ++ ending := by
  rcases Option.or_eq_some_iff.1 h with hword | ⟨-, hplural⟩
  · obtain ⟨pair, hpair, hfound, rfl⟩ := exists_of_counterpart? hword
    exact ⟨pair, hpair, run, [], (List.append_nil _).symm, Or.inl rfl, hfound,
      (List.append_nil _).symm⟩
  · rw [pluralSuggestion?] at hplural
    cases hlast : run.getLast? with
    | none =>
        rw [hlast] at hplural
        cases hplural
    | some c =>
        obtain ⟨word, rfl⟩ := List.getLast?_eq_some_iff.1 hlast
        simp only [hlast, List.dropLast_concat] at hplural
        split at hplural
        · next hc =>
          obtain ⟨counterpart, hcounterpart, rfl⟩ := Option.map_eq_some_iff.1 hplural
          obtain ⟨pair, hpair, hfound, rfl⟩ := exists_of_counterpart? hcounterpart
          exact ⟨pair, hpair, word, [c], rfl, Or.inr ⟨c, rfl, hc⟩, hfound, rfl⟩
        · cases hplural

/-! ### Plural endings -/

/-- Whether a text ends like a plural. -/
def endsLikePlural (t : Text) : Bool := t.getLast?.any isPlural

/-- Neither spellings nor counterparts end like a plural. -/
theorem endsLikePlural_eq_false : ∀ pair ∈ dictionary,
    (endsLikePlural pair.found || endsLikePlural pair.wanted) = false := by decide

theorem isPlural_lower (h : isPlural c = true) : isPlural (lower c) = true := by
  simp only [isPlural, Bool.or_eq_true, beq_iff_eq] at h
  rcases h with (rfl | rfl) | rfl <;> decide

/-- What ends like a plural does so in lower case. -/
theorem endsLikePlural_map_lower (hlast : word.getLast? = some c) (hc : isPlural c = true) :
    endsLikePlural (word.map lower) = true := by
  rw [endsLikePlural, List.getLast?_map, hlast]
  exact isPlural_lower hc

/-- What ends like a plural is no spelling of the table. -/
theorem counterpart?_concat (hc : isPlural c = true) (word : Text) :
    counterpart? (word ++ [c]) = none := by
  refine counterpart?_eq_none_iff.2 fun other hother hfound => ?_
  have hplural := endsLikePlural_map_lower (List.getLast?_concat (l := word)) hc
  rw [← hfound] at hplural
  simpa [hplural] using endsLikePlural_eq_false other hother

/-- For a word with an ending the counterpart of the word is suggested, with the ending. -/
theorem suggestion?_concat (hc : isPlural c = true) (word : Text) :
    suggestion? (word ++ [c]) = (counterpart? word).map (· ++ [c]) := by
  rw [suggestion?, counterpart?_concat hc, Option.none_or, pluralSuggestion?, List.getLast?_concat]
  simp only [hc, if_true, List.dropLast_concat]

end Spelling

end GitHooks
