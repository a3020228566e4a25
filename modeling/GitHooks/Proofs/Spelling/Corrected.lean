/-
**Lines with their findings corrected.**

A line is corrected run by run, and each run that changes is a finding.  So the corrected line is
the line with every finding replaced where it stands; replaced from the right, no replacement moves
a finding that is still to come.

That nothing is found in a corrected line is a property of the table.  Lower case takes a suggestion
back to the entry that it comes from, whatever the case of the word was.  No such entry is a
spelling that is looked for, and neither of the two ends like a plural; so a suggestion is found
neither as it stands nor without its ending.  And it is written in letters, so that the words around
it stay the words they were.

Main definitions:

* `Spelling.Finding.StandsIn` — a finding that stands at its column;
* `Spelling.Finding.replaceIn` — a line with a finding replaced.

Main results:

* `Spelling.foldr_replaceIn_check` — the corrected line is the line with every finding replaced;
* `Spelling.suggestion?_suggestion` — there is no suggestion for a suggestion;
* `Spelling.check_correct` — nothing is found in a corrected line.
-/

import GitHooks.Proofs.Spelling

set_option relaxedAutoImplicit false
set_option autoImplicit false

namespace GitHooks

open Text

/-! ### Findings replaced -/

namespace Spelling

variable {column : Nat} {finding : Finding}

/-- A finding stands at its column of a line. -/
def Finding.StandsIn (finding : Finding) (line : Text) : Prop :=
  ∃ before after, line = before ++ (finding.found ++ after) ∧ finding.column = before.length + 1

/-- A line with a finding replaced by its suggestion: so many characters as were found, from the
column of the finding. -/
def Finding.replaceIn (finding : Finding) (line : Text) : Text :=
  line.take (finding.column - 1) ++ (finding.suggestion
    ++ line.drop (finding.column - 1 + finding.found.length))

theorem replaceIn_append (before found suggestion after : Text) :
    Finding.replaceIn ⟨before.length + 1, found, suggestion⟩ (before ++ (found ++ after))
      = before ++ (suggestion ++ after) := by
  simp only [Finding.replaceIn, Nat.add_sub_cancel, List.take_left, List.append_cancel_left_eq]
  rw [← List.append_assoc, ← List.length_append, List.drop_left]

/-- Every finding among some runs stands at its column. -/
theorem standsIn_of_mem_checkRuns {before : Text} {rs : List Text}
    (h : finding ∈ checkRuns (before.length + 1) rs) :
    finding.StandsIn (before ++ rs.flatten) := by
  induction rs generalizing before with
  | nil => exact absurd h List.not_mem_nil
  | cons run rest ih =>
      have hbehind : finding ∈ checkRuns (before.length + 1 + run.length) rest →
          finding.StandsIn (before ++ (run :: rest).flatten) := by
        intro hrest
        rw [List.flatten_cons, ← List.append_assoc]
        refine ih ?_
        rwa [List.length_append, Nat.add_right_comm]
      simp only [checkRuns] at h
      split at h
      · rcases List.mem_cons.1 h with rfl | hrest
        · exact ⟨before, rest.flatten, rfl, rfl⟩
        · exact hbehind hrest
      · exact hbehind h

theorem column_le_of_mem_checkRuns {rs : List Text} (h : finding ∈ checkRuns column rs) :
    column ≤ finding.column := by
  induction rs generalizing column with
  | nil => exact absurd h List.not_mem_nil
  | cons run rest ih =>
      simp only [checkRuns] at h
      split at h
      · rcases List.mem_cons.1 h with rfl | hrest
        · exact Nat.le_refl _
        · exact Nat.le_of_add_right_le (ih hrest)
      · exact Nat.le_of_add_right_le (ih h)

/-- Findings come from left to right, and none reaches into the next. -/
theorem pairwise_checkRuns (column : Nat) (rs : List Text) :
    (checkRuns column rs).Pairwise fun first second =>
      first.column + first.found.length ≤ second.column := by
  induction rs generalizing column with
  | nil => exact List.Pairwise.nil
  | cons run rest ih =>
      simp only [checkRuns]
      split
      · exact List.Pairwise.cons (fun second hsecond => column_le_of_mem_checkRuns hsecond)
          (ih _)
      · exact ih _

theorem standsIn_of_mem_check {line : Text} (h : finding ∈ check line) : finding.StandsIn line := by
  rw [check_eq_checkRuns] at h
  have hstands := @standsIn_of_mem_checkRuns finding [] (runs line) h
  rwa [flatten_runs] at hstands

theorem pairwise_check (line : Text) :
    (check line).Pairwise fun first second =>
      first.column + first.found.length ≤ second.column := by
  rw [check_eq_checkRuns]
  exact pairwise_checkRuns 1 (runs line)

/-- Every finding among some runs replaced, the last one first, is every run corrected. -/
theorem foldr_replaceIn_checkRuns (before : Text) (rs : List Text) :
    (checkRuns (before.length + 1) rs).foldr Finding.replaceIn (before ++ rs.flatten)
      = before ++ correctRuns rs := by
  induction rs generalizing before with
  | nil => rfl
  | cons run rest ih =>
      have hrest := ih (before ++ run)
      rw [List.length_append, Nat.add_right_comm, List.append_assoc, List.append_assoc] at hrest
      simp only [checkRuns, List.flatten_cons, correctRuns_cons]
      cases hs : suggestion? run with
      | none => exact hrest
      | some suggestion => rw [List.foldr_cons, hrest, replaceIn_append, Option.getD_some]

/-- **The corrected line is the line with every finding replaced.** -/
theorem foldr_replaceIn_check (line : Text) :
    (check line).foldr Finding.replaceIn line = correct line := by
  have h := foldr_replaceIn_checkRuns [] (runs line)
  rw [flatten_runs] at h
  rw [check_eq_checkRuns, correct_eq_correctRuns]
  exact h

/-! ### Back to the table -/

variable {pair : Pair} {run word ending suggestion : Text} {c : Char}

/-- The counterparts are written with the small letters of ASCII, as the spellings are. -/
theorem letters_of_mem_wanted : ∀ pair ∈ dictionary,
    pair.wanted.all (fun c => 97 ≤ c.toNat && c.toNat ≤ 122) = true := by decide

/-- No counterpart is a spelling that is looked for. -/
theorem found_ne_wanted : ∀ pair ∈ dictionary, ∀ other ∈ dictionary, other.found ≠ pair.wanted := by
  decide +kernel

theorem lower_letter : ∀ n ∈ List.range' 97 26,
    lower (Char.ofNat n) = Char.ofNat n
      ∧ lower (Char.ofNat n).toUpper = Char.ofNat n := by decide

/-- Lower case takes a small letter of ASCII back, whether it was put into upper case or not. -/
theorem lower_toUpper (h : 97 ≤ c.toNat ∧ c.toNat ≤ 122) :
    lower c = c ∧ lower c.toUpper = c := by
  have hletter := lower_letter c.toNat (List.mem_range'_1.2 ⟨h.1, by omega⟩)
  rwa [Char.ofNat_toNat] at hletter

/-- Lower case takes a spelling back, whatever case it was put into. -/
theorem map_lower_matchCase {spelling : Text}
    (h : ∀ c ∈ spelling, 97 ≤ c.toNat ∧ c.toNat ≤ 122) (word : Text) :
    (matchCase word spelling).map lower = spelling := by
  have hsmall : spelling.map lower = spelling :=
    List.map_congr_left (fun c hc => (lower_toUpper (h c hc)).1) |>.trans (List.map_id _)
  have hupper : (spelling.map Char.toUpper).map lower = spelling := by
    rw [List.map_map]
    exact List.map_congr_left (fun c hc => (lower_toUpper (h c hc)).2) |>.trans (List.map_id _)
  have hcapital : (capitalize spelling).map lower = spelling := by
    cases spelling with
    | nil => rfl
    | cons c t =>
        have hc := lower_toUpper (h c List.mem_cons_self)
        rw [List.map_cons, hc.1, List.cons.injEq] at hsmall
        rw [capitalize, List.map_cons, hc.2, hsmall.2]
  cases word with
  | nil => exact hsmall
  | cons first rest =>
      simp only [matchCase]
      split
      · split
        · exact hupper
        · split
          · exact hcapital
          · exact hsmall
      · exact hsmall

/-- What lower case takes back to a counterpart is not found, as it stands or with an ending. -/
theorem suggestion?_of_wanted (hpair : pair ∈ dictionary) (hword : word.map lower = pair.wanted)
    (hending : IsEnding ending) : suggestion? (word ++ ending) = none := by
  have hnone : counterpart? word = none :=
    counterpart?_eq_none_iff.2 fun other hother => by
      rw [hword]
      exact found_ne_wanted pair hpair other hother
  rcases hending with rfl | ⟨c, rfl, hc⟩
  · rw [List.append_nil, suggestion?, hnone, Option.none_or, pluralSuggestion?]
    cases hlast : word.getLast? with
    | none => rfl
    | some c =>
        -- the last letter would be the plural ending of the counterpart
        refine if_neg fun hc => ?_
        have hplural := endsLikePlural_map_lower hlast hc
        rw [hword] at hplural
        simpa [hplural] using endsLikePlural_eq_false pair hpair
  · rw [suggestion?_concat hc, hnone, Option.map_none]

/-- The lower case of the suggestion for a word is the counterpart in the table. -/
theorem map_lower_wanted (hpair : pair ∈ dictionary) (word : Text) :
    (matchCase word pair.wanted).map lower = pair.wanted := by
  refine map_lower_matchCase (fun c hc => ?_) word
  simpa using List.all_eq_true.1 (letters_of_mem_wanted pair hpair) c hc

/-- **There is no suggestion for a suggestion.** -/
theorem suggestion?_suggestion (h : suggestion? run = some suggestion) :
    suggestion? suggestion = none := by
  obtain ⟨pair, hpair, word, ending, -, hending, -, rfl⟩ := exists_of_suggestion? h
  exact suggestion?_of_wanted hpair (map_lower_wanted hpair word) hending

theorem wanted_ne_nil : ∀ pair ∈ dictionary, pair.wanted ≠ [] := by decide

/-! ### Word by word -/

variable {u t : Text}

/-- A character that is part of no word is kept. -/
theorem correct_cons (hc : isWord c = false) (t : Text) : correct (c :: t) = c :: correct t := by
  rw [correct_eq_correctRuns, correctRuns_runs_cons hc, ← correct_eq_correctRuns]

/-- A word is corrected as it stands. -/
theorem correct_append (hu : IsRun u) (ht : startsInWord t = false) :
    correct (u ++ t) = (suggestion? u).getD u ++ correct t := by
  rw [correct_eq_correctRuns, runs_append hu ht, correctRuns_cons, ← correct_eq_correctRuns]

theorem checkRuns_append (hu : IsRun u) (ht : startsInWord t = false)
    (hnone : suggestion? u = none) (column : Nat) :
    checkRuns column (runs (u ++ t)) = checkRuns (column + u.length) (runs t) := by
  rw [runs_append hu ht, checkRuns_cons_of_none hnone]

/-- A suggestion is written in word characters. -/
theorem isRun_suggestion (h : IsRun u) : IsRun ((suggestion? u).getD u) := by
  cases hs : suggestion? u with
  | none => exact h
  | some suggestion =>
      obtain ⟨pair, hpair, word, ending, -, hending, -, rfl⟩ := exists_of_suggestion? hs
      have hlower := map_lower_wanted hpair word
      rw [Option.getD_some]
      constructor
      · intro hnil
        rw [(List.append_eq_nil_iff.1 hnil).1] at hlower
        exact wanted_ne_nil pair hpair hlower.symm
      · intro c hc
        rcases List.mem_append.1 hc with hc | hc
        · have hmem : lower c ∈ pair.wanted := by
            rw [← hlower]
            exact List.mem_map_of_mem hc
          have hletter := List.all_eq_true.1 (letters_of_mem_wanted pair hpair) _ hmem
          exact isWord_of_lower (by simpa using hletter)
        · rcases hending with rfl | ⟨d, rfl, hd⟩
          · exact absurd hc List.not_mem_nil
          · obtain rfl := List.mem_singleton.1 hc
            exact isWord_of_isPlural hd

theorem startsInWord_correct (t : Text) : startsInWord (correct t) = startsInWord t := by
  induction t using word_induction with
  | nil => rfl
  | gap c t hc _ =>
      rw [correct_cons hc]
      rfl
  | word u t hu ht _ =>
      rw [correct_append hu ht, startsInWord_append hu, startsInWord_append (isRun_suggestion hu)]

theorem suggestion?_getD (u : Text) : suggestion? ((suggestion? u).getD u) = none := by
  cases hs : suggestion? u with
  | none => exact hs
  | some suggestion => exact suggestion?_suggestion hs

/-- **Nothing is found in a corrected line.** -/
theorem check_correct (line : Text) : check (correct line) = [] := by
  rw [check_eq_checkRuns]
  suffices h : ∀ column, checkRuns column (runs (correct line)) = [] from h 1
  induction line using word_induction with
  | nil => exact fun column => rfl
  | gap c t hc ih =>
      intro column
      rw [correct_cons hc, checkRuns_runs_cons hc]
      exact ih _
  | word u t hu ht ih =>
      intro column
      rw [correct_append hu ht, checkRuns_append (isRun_suggestion hu)
        ((startsInWord_correct t).trans ht) (suggestion?_getD u)]
      exact ih _

/-- A line is left as it is exactly when nothing is found in it. -/
theorem check_eq_nil_iff (line : Text) : check line = [] ↔ correct line = line := by
  constructor
  · intro h
    rw [← foldr_replaceIn_check, h, List.foldr_nil]
  · intro h
    rw [← h]
    exact check_correct line

end Spelling

end GitHooks
