/-
**The search is a look-up of whole words.**

The pattern for spellings has alternatives, some of which begin alike, and an ending that it may
leave out; so it might depend on the order in which the ways to match it are tried what is found,
and a word might be found that is a part of a longer one.  Neither happens.  A match begins and ends
at boundaries and is written in word characters, so it is a whole word, and no spelling ends like a
plural, so a word is taken apart in one way only.  Where the pattern matches a word that is not in
the table, because of a long s in it, nothing is suggested, as nothing is for a word that is not
matched.

Main definitions:

* `Spelling.IsSpelled` — words that the pattern takes for a spelling of the table.

Main results:

* `Spelling.mem_hitsAt_iff` — what the pattern matches at a place;
* `Spelling.hitsFrom_cons`, `Spelling.hitsFrom_append` — the search goes on behind a gap and behind
  a word;
* `Spelling.suggestion?_head?_hitsAt` — what is suggested for the hit at a word;
* `Spelling.check_eq_checkRuns`, `Spelling.correct_eq_correctRuns` — the search is the look-up.
-/

import GitHooks.Proofs.Spelling.Lookup
import GitHooks.Proofs.Text.Pattern

set_option relaxedAutoImplicit false
set_option autoImplicit false

namespace GitHooks

namespace Spelling

open Text

variable {before after spelling word ending t u : Text} {pair : Pair} {hit : Hit} {c : Char}

/-! ### Case -/

theorem longS_notLetter : ¬ (97 ≤ longS.toNat ∧ longS.toNat ≤ 122) := by decide

/-- Where lower case leads to a letter of ASCII, so does folding. -/
theorem fold_eq_lower (h : 97 ≤ (lower c).toNat ∧ (lower c).toNat ≤ 122) : fold c = lower c := by
  refine if_neg ?_
  rintro rfl
  exact longS_notLetter h

/-- What folds to a small letter of ASCII is part of words. -/
theorem isWord_of_fold (h : 97 ≤ (fold c).toNat ∧ (fold c).toNat ≤ 122) : isWord c = true := by
  by_cases hs : c = longS
  · rw [hs]
    decide +kernel
  · rw [fold, if_neg hs] at h
    exact isWord_of_lower h

theorem toLower_eq_s : ∀ n ∈ List.range' 65 26,
    (Char.ofNat n).toLower = 's' → Char.ofNat n = 'S' := by decide

theorem eq_of_lower_eq_s (h : lower c = 's') : c = 's' ∨ c = 'S' := by
  by_cases hk : c = kelvinSign
  · rw [hk] at h
    exact absurd h (by decide)
  · rw [lower, if_neg hk] at h
    by_cases hcapital : 65 ≤ c.toNat ∧ c.toNat ≤ 90
    · have hletter := toLower_eq_s c.toNat (List.mem_range'_1.2 ⟨hcapital.1, by omega⟩)
      rw [Char.ofNat_toNat] at hletter
      exact .inr (hletter h)
    · exact .inl ((toLower_eq_self hcapital).symm.trans h)

/-- The plural endings are what folds to the letter s. -/
theorem fold_eq_s_iff : fold c = 's' ↔ isPlural c = true := by
  constructor
  · intro h
    by_cases hs : c = longS
    · rw [hs]
      decide
    · rw [fold, if_neg hs] at h
      rcases eq_of_lower_eq_s h with rfl | rfl <;> decide
  · intro h
    simp only [isPlural, Bool.or_eq_true, beq_iff_eq] at h
    rcases h with (rfl | rfl) | rfl <;> decide

/-! ### What the pattern matches -/

/-- A word that the pattern takes for a spelling of the table. -/
def IsSpelled (word : Text) : Prop := ∃ pair ∈ dictionary, word.map fold = pair.found

theorem found_ne_nil : ∀ pair ∈ dictionary, pair.found ≠ [] := by decide

theorem IsSpelled.isRun (h : IsSpelled word) : IsRun word := by
  obtain ⟨pair, hpair, hfold⟩ := h
  constructor
  · rintro rfl
    exact found_ne_nil pair hpair hfold.symm
  · intro c hc
    have hmem : fold c ∈ pair.found := by
      rw [← hfold]
      exact List.mem_map_of_mem hc
    have hletter := List.all_eq_true.1 (letters_of_mem_dictionary pair hpair) _ hmem
    exact isWord_of_fold (by simpa using hletter)

/-- A word with an ending is written in word characters. -/
theorem IsSpelled.isRun_append (h : IsSpelled word) (hending : IsEnding ending) :
    IsRun (word ++ ending) := by
  refine ⟨fun hnil => h.isRun.ne_nil (List.append_eq_nil_iff.1 hnil).1, fun c hc => ?_⟩
  rcases List.mem_append.1 hc with hc | hc
  · exact h.isRun.word c hc
  · rcases hending with rfl | ⟨d, rfl, hd⟩
    · exact absurd hc List.not_mem_nil
    · rw [List.mem_singleton.1 hc]
      exact isWord_of_isPlural hd

theorem anyCase_matches_iff :
    (anyCase spelling).Matches before t after ↔ t.map fold = spelling := by
  induction spelling generalizing before t with
  | nil => exact List.map_eq_nil_iff.symm
  | cons c spelling ih =>
      simp only [anyCase, letter, Pattern.Matches, ih, beq_iff_eq]
      constructor
      · rintro ⟨_, v, rfl, ⟨d, rfl, rfl⟩, rfl⟩
        rfl
      · intro h
        obtain ⟨d, v, rfl, hd, hv⟩ := List.map_eq_cons_iff.1 h
        exact ⟨[d], v, rfl, ⟨d, hd, rfl⟩, hv⟩

theorem mem_spellings_iff : spelling ∈ spellings ↔ ∃ pair ∈ dictionary, pair.found = spelling := by
  rw [spellings, List.mem_mergeSort, List.mem_map]

/-- The order of the spellings does not matter for what is taken for one of them. -/
theorem anyOf_spellings_matches_iff :
    (Pattern.anyOf (spellings.map anyCase)).Matches before t after ↔ IsSpelled t := by
  have hne : spellings.map anyCase ≠ [] := by
    rw [Ne, List.map_eq_nil_iff]
    exact List.ne_nil_of_mem (mem_spellings_iff.2 ⟨_, List.mem_cons_self, rfl⟩)
  rw [Pattern.anyOf_matches_iff hne]
  constructor
  · rintro ⟨_, hmem, hmatch⟩
    obtain ⟨spelling, hspelling, rfl⟩ := List.mem_map.1 hmem
    obtain ⟨pair, hpair, rfl⟩ := mem_spellings_iff.1 hspelling
    exact ⟨pair, hpair, anyCase_matches_iff.1 hmatch⟩
  · rintro ⟨pair, hpair, hfold⟩
    exact ⟨_, List.mem_map_of_mem (mem_spellings_iff.2 ⟨pair, hpair, rfl⟩),
      anyCase_matches_iff.2 hfold⟩

/-- A spelling begins where no word has begun before. -/
theorem spelled_matches_iff :
    spelled.Matches before t after ↔ endsInWord before = false ∧ IsSpelled t := by
  simp only [spelled, Pattern.Matches, anyOf_spellings_matches_iff]
  constructor
  · rintro ⟨_, v, rfl, ⟨rfl, hboundary⟩, hspelled⟩
    rw [startsInWord_append hspelled.isRun] at hboundary
    exact ⟨Bool.eq_false_iff.2 hboundary, hspelled⟩
  · rintro ⟨hbefore, hspelled⟩
    refine ⟨[], t, rfl, ⟨rfl, ?_⟩, hspelled⟩
    rw [hbefore, startsInWord_append hspelled.isRun]
    decide

/-- Behind a spelling there is an ending or none, and no word goes on. -/
theorem ended_matches_iff (hspelled : IsSpelled word) :
    ended.Matches (before ++ word) t after ↔ IsEnding t ∧ startsInWord after = false := by
  have hends : ∀ {ending}, IsEnding ending → endsInWord (before ++ word ++ ending) = true := by
    intro ending hending
    have hrun := hspelled.isRun_append hending
    rw [List.append_assoc, endsInWord_append hrun.ne_nil, hrun.endsInWord]
  simp only [ended, letter, Pattern.Matches, beq_iff_eq, fold_eq_s_iff]
  constructor
  · rintro ⟨u, _, rfl, hending, rfl, hboundary⟩
    have hu : IsEnding u := by
      rcases hending with ⟨c, hc, rfl⟩ | rfl
      · exact .inr ⟨c, rfl, hc⟩
      · exact .inl rfl
    rw [hends hu] at hboundary
    rw [List.append_nil]
    exact ⟨hu, Bool.eq_false_iff.2 hboundary.symm⟩
  · rintro ⟨hending, hafter⟩
    refine ⟨t, [], (List.append_nil t).symm, ?_, rfl, ?_⟩
    · rcases hending with rfl | ⟨c, rfl, hc⟩
      · exact .inr rfl
      · exact .inl ⟨c, hc, rfl⟩
    · rw [hends hending, hafter]
      decide

/-- **What the pattern matches at a place** are the whole words there that are a spelling with an
ending or without, as far as the pattern can tell. -/
theorem mem_hitsAt_iff : hit ∈ hitsAt (before, after) ↔ hit.start = before.length
    ∧ IsSpelled hit.word ∧ IsEnding hit.ending
    ∧ ∃ rest, IsWordIn (before ++ after) before hit.whole rest := by
  obtain ⟨start, word, ending⟩ := hit
  simp only [hitsAt, List.mem_flatMap, List.mem_map, Prod.exists, Pattern.mem_ends_iff,
    spelled_matches_iff, Hit.mk.injEq, Hit.whole]
  constructor
  · rintro ⟨_, _, ⟨u, rfl, rfl, hbefore, hspelled⟩, _, rest, ⟨v, rfl, rfl, hended⟩, rfl, rfl, rfl⟩
    obtain ⟨hending, hrest⟩ := (ended_matches_iff hspelled).1 hended
    simp only [between_append]
    refine ⟨trivial, hspelled, hending, rest, ?_, hspelled.isRun_append hending, hbefore, hrest⟩
    rw [List.append_assoc u]
  · rintro ⟨rfl, hspelled, hending, rest, hparts, -, hbefore, hrest⟩
    have hafter : after = word ++ (ending ++ rest) := by
      rw [List.append_cancel_left hparts, List.append_assoc]
    exact ⟨_, _, ⟨word, rfl, hafter, hbefore, hspelled⟩, _, rest,
      ⟨ending, rfl, rfl, (ended_matches_iff hspelled).2 ⟨hending, hrest⟩⟩, rfl,
      between_append _ _ _ _, between_append _ _ _ _⟩

/-- At a word the pattern matches the whole of it or nothing. -/
theorem whole_eq_of_mem_hitsAt (hu : IsRun u) (ht : startsInWord t = false)
    (h : hit ∈ hitsAt (before, u ++ t)) : hit.whole = u := by
  obtain ⟨-, -, -, rest, hparts, hrun, -, hrest⟩ := mem_hitsAt_iff.1 h
  rw [← takeWhile_isWord hu ht, List.append_cancel_left hparts, takeWhile_isWord hrun hrest]

/-- Nothing is matched where no word begins. -/
theorem hitsAt_eq_nil (h : startsInWord after = true → endsInWord before = true) :
    hitsAt (before, after) = [] := by
  refine List.eq_nil_iff_forall_not_mem.2 fun hit hmem => ?_
  obtain ⟨-, -, -, rest, hparts, hrun, hbefore, -⟩ := mem_hitsAt_iff.1 hmem
  have hafter : startsInWord after = true := by
    rw [List.append_cancel_left hparts, startsInWord_append hrun]
  rw [h hafter] at hbefore
  cases hbefore

/-! ### The search goes on -/

theorem hitsFrom_of_nil (h : hitsAt (before, c :: t) = []) :
    hitsFrom before 0 (c :: t) = hitsFrom (before ++ [c]) 0 t := by
  rw [hitsFrom, h, List.head?_nil]

/-- The characters of a hit are passed over. -/
theorem hitsFrom_length (before u t : Text) :
    hitsFrom before u.length (u ++ t) = hitsFrom (before ++ u) 0 t := by
  induction u generalizing before with
  | nil => rw [List.append_nil, List.length_nil, List.nil_append]
  | cons c u ih => rw [List.length_cons, List.cons_append, hitsFrom, ih, ← List.append_cons]

/-- The search goes on behind a character that is part of no word. -/
theorem hitsFrom_cons (hc : isWord c = false) (before t : Text) :
    hitsFrom before 0 (c :: t) = hitsFrom (before ++ [c]) 0 t := by
  refine hitsFrom_of_nil (hitsAt_eq_nil fun hstarts => ?_)
  exact absurd (hc.symm.trans hstarts) Bool.false_ne_true

/-- Inside a word nothing is matched. -/
theorem hitsFrom_inside (hbefore : endsInWord before = true) (hu : ∀ c ∈ u, isWord c = true)
    (t : Text) : hitsFrom before 0 (u ++ t) = hitsFrom (before ++ u) 0 t := by
  induction u generalizing before with
  | nil => rw [List.append_nil, List.nil_append]
  | cons c u ih =>
      obtain ⟨hc, hrest⟩ := List.forall_mem_cons.1 hu
      have hinside : endsInWord (before ++ [c]) = true := by
        rw [endsInWord_append (List.cons_ne_nil _ _)]
        exact hc
      rw [List.cons_append, hitsFrom_of_nil (hitsAt_eq_nil fun _ => hbefore), ih hinside hrest,
        ← List.append_cons]

/-- **The search goes on behind a word**, whether the word is matched or not. -/
theorem hitsFrom_append (hu : IsRun u) (ht : startsInWord t = false) (before : Text) :
    hitsFrom before 0 (u ++ t)
      = (hitsAt (before, u ++ t)).head?.toList ++ hitsFrom (before ++ u) 0 t := by
  obtain ⟨c, rest, rfl⟩ := List.exists_cons_of_ne_nil hu.ne_nil
  have hbehind : before ++ c :: rest = before ++ [c] ++ rest := List.append_cons _ _ _
  rw [List.cons_append, hitsFrom]
  cases hhead : (hitsAt (before, c :: (rest ++ t))).head? with
  | none =>
      have hinside : endsInWord (before ++ [c]) = true := by
        rw [endsInWord_append (List.cons_ne_nil _ _)]
        exact hu.word c List.mem_cons_self
      rw [hbehind]
      exact hitsFrom_inside hinside (fun d hd => hu.word d (List.mem_cons_of_mem _ hd)) t
  | some hit =>
      have hwhole : hit.whole = c :: rest :=
        whole_eq_of_mem_hitsAt hu ht (List.mem_of_head? hhead)
      simp only [hwhole, List.length_cons, Nat.add_sub_cancel, hitsFrom_length, hbehind]
      rfl

/-! ### What is suggested for a hit -/

/-- Where folding leads to a spelling, an ending that is left over is that of a plural. -/
theorem counterpart?_append (hspelled : IsSpelled word) (hending : IsEnding ending) :
    suggestion? (word ++ ending) = (counterpart? word).map (· ++ ending) := by
  rcases hending with rfl | ⟨c, rfl, hc⟩
  · have hplural : pluralSuggestion? word = none := by
      rw [pluralSuggestion?]
      cases hlast : word.getLast? with
      | none => rfl
      | some c =>
          -- the spelling would end like a plural
          refine if_neg fun hc => ?_
          obtain ⟨pair, hpair, hfold⟩ := hspelled
          have hends : endsLikePlural pair.found = true := by
            rw [← hfold, endsLikePlural, List.getLast?_map, hlast, Option.map_some,
              fold_eq_s_iff.2 hc]
            decide
          simpa [hends] using endsLikePlural_eq_false pair hpair
    simp only [suggestion?, hplural, Option.or_none, List.append_nil, Option.map_id']
  · exact suggestion?_concat hc word

/-- What has a suggestion is matched by the pattern. -/
theorem exists_isSpelled (h : (suggestion? u).isSome = true) :
    ∃ word ending, u = word ++ ending ∧ IsSpelled word ∧ IsEnding ending := by
  obtain ⟨suggestion, hs⟩ := Option.isSome_iff_exists.1 h
  obtain ⟨pair, hpair, word, ending, rfl, hending, hfound, -⟩ := exists_of_suggestion? hs
  refine ⟨word, ending, rfl, ⟨pair, hpair, ?_⟩, hending⟩
  rw [hfound]
  refine List.map_congr_left fun c hc => fold_eq_lower ?_
  have hmem : lower c ∈ pair.found := by
    rw [hfound]
    exact List.mem_map_of_mem hc
  simpa using List.all_eq_true.1 (letters_of_mem_dictionary pair hpair) _ hmem

/-- **What is suggested for the hit at a word is what the look-up suggests for the word.** -/
theorem suggestion?_head?_hitsAt (hu : IsRun u) (ht : startsInWord t = false)
    (hbefore : endsInWord before = false) :
    (hitsAt (before, u ++ t)).head?.bind Hit.suggestion? = suggestion? u := by
  cases hhits : hitsAt (before, u ++ t) with
  | nil =>
      refine (Option.not_isSome_iff_eq_none.1 fun hsome => ?_).symm
      obtain ⟨word, ending, rfl, hspelled, hending⟩ := exists_isSpelled hsome
      have hmem : ⟨before.length, word, ending⟩ ∈ hitsAt (before, word ++ ending ++ t) :=
        mem_hitsAt_iff.2 ⟨rfl, hspelled, hending, t, rfl, hu, hbefore, ht⟩
      rw [hhits] at hmem
      cases hmem
  | cons hit others =>
      have hmem : hit ∈ hitsAt (before, u ++ t) := by
        rw [hhits]
        exact List.mem_cons_self
      obtain ⟨-, hspelled, hending, -⟩ := mem_hitsAt_iff.1 hmem
      rw [← whole_eq_of_mem_hitsAt hu ht hmem]
      exact (counterpart?_append hspelled hending).symm

/-! ### The whole line -/

/-- What is told about the hit at a word. -/
theorem filterMap_head?_hitsAt (hu : IsRun u) (ht : startsInWord t = false)
    (hbefore : endsInWord before = false) :
    (hitsAt (before, u ++ t)).head?.toList.filterMap Hit.finding?
      = ((suggestion? u).map fun suggestion => ⟨before.length + 1, u, suggestion⟩).toList := by
  rw [← suggestion?_head?_hitsAt hu ht hbefore]
  cases hhead : (hitsAt (before, u ++ t)).head? with
  | none => rfl
  | some hit =>
      have hmem : hit ∈ hitsAt (before, u ++ t) := List.mem_of_head? hhead
      have hstart : hit.start = before.length := (mem_hitsAt_iff.1 hmem).1
      have hwhole : hit.whole = u := whole_eq_of_mem_hitsAt hu ht hmem
      rw [Option.toList_some, Option.bind_some, ← hstart, ← hwhole]
      cases hs : hit.suggestion? with
      | none => simp [Hit.finding?, hs]
      | some suggestion => simp [Hit.finding?, hs]

/-- No word goes on from a text into the text behind it. -/
def IsCut (before after : Text) : Prop := endsInWord before = false ∨ startsInWord after = false

theorem IsCut.of_gap (hc : isWord c = false) (before t : Text) : IsCut (before ++ [c]) t := by
  left
  rw [endsInWord_append (List.cons_ne_nil _ _)]
  exact hc

theorem IsCut.endsInWord (h : IsCut before (u ++ t)) (hu : IsRun u) :
    endsInWord before = false := by
  refine h.resolve_right fun hstarts => ?_
  rw [startsInWord_append hu] at hstarts
  cases hstarts

/-- The findings of the search behind a cut are those of the look-up. -/
theorem filterMap_hitsFrom (h : IsCut before t) :
    (hitsFrom before 0 t).filterMap Hit.finding? = checkRuns (before.length + 1) (runs t) := by
  induction t using word_induction generalizing before with
  | nil => rfl
  | gap c t hc ih =>
      rw [hitsFrom_cons hc, ih (.of_gap hc before t), checkRuns_runs_cons hc, List.length_append]
      rfl
  | word u t hu ht ih =>
      rw [hitsFrom_append hu ht, List.filterMap_append, filterMap_head?_hitsAt hu ht
        (h.endsInWord hu), ih (.inr ht), runs_append hu ht, checkRuns_cons, List.length_append,
        Nat.add_right_comm]

/-- What the search replaces behind a cut are the words that the look-up corrects. -/
theorem replaceHits_hitsFrom {start : Nat} (h : IsCut before t) (hstart : start ≤ before.length) :
    replaceHits (before ++ t) start (hitsFrom before 0 t)
      = before.drop start ++ correctRuns (runs t) := by
  induction t using word_induction generalizing before start with
  | nil =>
      rw [List.append_nil]
      exact (List.append_nil _).symm
  | gap c t hc ih =>
      have hlonger : start ≤ (before ++ [c]).length :=
        Nat.le_trans hstart (List.length_append ▸ Nat.le_add_right _ _)
      have hrest := ih (.of_gap hc before t) hlonger
      rw [hitsFrom_cons hc, List.append_cons, hrest, List.drop_append_of_le_length hstart,
        correctRuns_runs_cons hc, ← List.append_cons]
  | word u t hu ht ih =>
      have hlonger : before.length ≤ (before ++ u).length :=
        List.length_append ▸ Nat.le_add_right _ _
      have hsuggestion := suggestion?_head?_hitsAt hu ht (h.endsInWord hu)
      rw [hitsFrom_append hu ht, runs_append hu ht, correctRuns_cons, ← hsuggestion]
      cases hhead : (hitsAt (before, u ++ t)).head? with
      | none =>
          have hrest := ih (.inr ht) (Nat.le_trans hstart hlonger)
          rw [List.append_assoc, List.drop_append_of_le_length hstart, List.append_assoc] at hrest
          exact hrest
      | some hit =>
          have hmem : hit ∈ hitsAt (before, u ++ t) := List.mem_of_head? hhead
          have hhit : hit.start = before.length := (mem_hitsAt_iff.1 hmem).1
          have hwhole : hit.whole = u := whole_eq_of_mem_hitsAt hu ht hmem
          have hrest : replaceHits (before ++ u ++ t) (before ++ u).length
              (hitsFrom (before ++ u) 0 t)
                = (before ++ u).drop (before ++ u).length ++ correctRuns (runs t) :=
            ih (.inr ht) (Nat.le_refl _)
          rw [List.append_assoc, List.drop_length, List.nil_append, List.length_append] at hrest
          simp only [Option.toList_some, List.singleton_append, replaceHits, hhit, hwhole,
            List.take_left, hrest, Option.bind_some]

/-- **The findings of a line are those of the look-up.** -/
theorem check_eq_checkRuns (line : Text) : check line = checkRuns 1 (runs line) := by
  have hcut : IsCut [] line := .inl rfl
  exact filterMap_hitsFrom hcut

/-- **A corrected line is the line with every word corrected that the look-up finds.** -/
theorem correct_eq_correctRuns (line : Text) : correct line = correctRuns (runs line) := by
  have hcut : IsCut [] line := .inl rfl
  exact replaceHits_hitsFrom hcut (Nat.zero_le _)

end Spelling

end GitHooks
