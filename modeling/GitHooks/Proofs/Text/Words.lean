/-
**Words of a text.**

A word is a longest run of word characters.  A text falls apart into its words and the gaps between
them, so what is said of all texts can be said by going from word to word.  A word is told by the
texts around it: neither the one before it ends in a word character, nor does the one behind it
begin with one.

Main definitions:

* `Text.runs` — the longest runs of word characters and of other characters, in order;
* `Text.IsRun` — texts that are one run of word characters;
* `Text.IsWordIn` — a word of a text, between what stands before it and behind it.

Main results:

* `Text.flatten_runs` — the runs put together are the text;
* `Text.runs_append`, `Text.word_induction` — the word that a text begins with, and induction along
  the words of a text;
* `Text.isWordIn_cons`, `Text.isWordIn_append` — the words behind a gap, and behind a word.
-/

import GitHooks.Text.Word

set_option relaxedAutoImplicit false
set_option autoImplicit false

namespace GitHooks

/-! ### Runs -/

namespace Text

variable {c : Char}

/-- The runs of a text with the character `c` put in front of it. -/
def consRun (c : Char) : List Text → List Text
  | (d :: run) :: runs =>
    if isWord c = isWord d then (c :: d :: run) :: runs else [c] :: (d :: run) :: runs
  | runs => [c] :: runs

/-- The longest runs of word characters and of other characters, in order. -/
def runs : Text → List Text
  | [] => []
  | c :: t => consRun c (runs t)

@[simp] theorem flatten_consRun (c : Char) (rs : List Text) :
    (consRun c rs).flatten = c :: rs.flatten := by
  unfold consRun
  split
  · split <;> simp
  · simp

/-- The runs of a text put together are the text. -/
@[simp] theorem flatten_runs (t : Text) : (runs t).flatten = t := by
  induction t with
  | nil => rfl
  | cons c t ih => simp [runs, ih]

/-- A character in front of some runs begins the first of them. -/
theorem exists_consRun (c : Char) (rs : List Text) :
    ∃ run rest, consRun c rs = (c :: run) :: rest := by
  unfold consRun
  split
  · split
    · exact ⟨_, _, rfl⟩
    · exact ⟨[], _, rfl⟩
  · exact ⟨[], rs, rfl⟩

/-- A text that begins with a word falls apart into the word and the runs behind it. -/
theorem runs_cons_of_isWord (hc : isWord c = true) (t : Text) :
    runs (c :: t) = (c :: t.takeWhile isWord) :: runs (t.dropWhile isWord) := by
  induction t generalizing c with
  | nil => rfl
  | cons d t ih =>
      rw [runs]
      cases hd : isWord d with
      | true =>
          rw [ih hd, consRun, if_pos (hc.trans hd.symm)]
          simp [hd]
      | false =>
          obtain ⟨run, rest, hrun⟩ := exists_consRun d (runs t)
          have hruns : runs (d :: t) = (d :: run) :: rest := hrun
          rw [hruns, consRun, if_neg (by simp [hc, hd])]
          simp [hd, hruns]

/-! ### Word by word -/

variable {u t : Text}

/-- A text that is one run of word characters. -/
structure IsRun (u : Text) : Prop where
  ne_nil : u ≠ []
  word : ∀ c ∈ u, isWord c = true

/-- A run is a run of the text that goes on with something else. -/
theorem runs_append (hu : IsRun u) (ht : startsInWord t = false) : runs (u ++ t) = u :: runs t := by
  obtain ⟨hne, hword⟩ := hu
  cases u with
  | nil => exact absurd rfl hne
  | cons c u =>
      have hrest : ∀ d ∈ u, isWord d = true := fun d hd => hword d (List.mem_cons_of_mem _ hd)
      rw [List.cons_append, runs_cons_of_isWord (hword c List.mem_cons_self),
        List.takeWhile_append_of_pos hrest, List.dropWhile_append_of_pos hrest]
      cases t with
      | nil => simp
      | cons d t =>
          have hd : isWord d = false := ht
          simp [hd]

theorem startsInWord_append (hu : IsRun u) (t : Text) : startsInWord (u ++ t) = true := by
  obtain ⟨hne, hword⟩ := hu
  cases u with
  | nil => exact absurd rfl hne
  | cons c u => exact hword c List.mem_cons_self

/-- A text that begins with no word begins with none when it goes on behind a gap. -/
theorem startsInWord_append_cons (hc : isWord c = false) (ht : startsInWord t = false) (u : Text) :
    startsInWord (t ++ c :: u) = false := by
  cases t with
  | nil => exact hc
  | cons d t => exact ht

theorem startsInWord_dropWhile (t : Text) : startsInWord (t.dropWhile isWord) = false := by
  have hhead := List.head?_dropWhile_not isWord t
  cases h : t.dropWhile isWord with
  | nil => rfl
  | cons c u =>
      rw [h] at hhead
      exact hhead

/-- **Induction along the words of a text**: it is empty, or begins with a character that is part of
no word, or with a whole word. -/
theorem word_induction {motive : Text → Prop} (nil : motive [])
    (gap : ∀ c t, isWord c = false → motive t → motive (c :: t))
    (word : ∀ u t, IsRun u → startsInWord t = false → motive t → motive (u ++ t)) (t : Text) :
    motive t := by
  induction hn : t.length using Nat.strongRecOn generalizing t with
  | _ n ih =>
      subst hn
      cases t with
      | nil => exact nil
      | cons c t =>
          cases hc : isWord c with
          | false => exact gap c t hc (ih t.length (by simp) t rfl)
          | true =>
              have hrun : IsRun (c :: t.takeWhile isWord) := by
                refine ⟨List.cons_ne_nil _ _, fun d hd => ?_⟩
                rcases List.mem_cons.1 hd with rfl | hd
                · exact hc
                · exact List.all_eq_true.1 List.all_takeWhile d hd
              have hlength : (t.dropWhile isWord).length < (c :: t).length :=
                Nat.lt_succ_of_le (List.dropWhile_suffix _).length_le
              have hwhole := word _ _ hrun (startsInWord_dropWhile t)
                (ih _ hlength (t.dropWhile isWord) rfl)
              rwa [List.cons_append, List.takeWhile_append_dropWhile] at hwhole

/-! ### A word between two texts -/

variable {before word after : Text}

theorem endsInWord_append (ht : t ≠ []) (u : Text) : endsInWord (u ++ t) = endsInWord t := by
  obtain ⟨c, hc⟩ := Option.isSome_iff_exists.1 (List.getLast?_isSome.2 ht)
  rw [endsInWord, endsInWord, List.getLast?_append, hc, Option.some_or]

/-- A character that is part of no word does not make a text end in one. -/
theorem endsInWord_cons (hc : isWord c = false) (t : Text) :
    endsInWord (c :: t) = endsInWord t := by
  cases t with
  | nil => simp [endsInWord, hc]
  | cons d t => exact endsInWord_append (List.cons_ne_nil d t) [c]

theorem IsRun.endsInWord (hu : IsRun u) : endsInWord u = true := by
  obtain ⟨front, c, rfl⟩ : ∃ front c, u = front ++ [c] :=
    ⟨_, _, (List.dropLast_concat_getLast hu.ne_nil).symm⟩
  simpa [Text.endsInWord] using hu.word c (by simp)

/-- A run is what word characters a text begins with. -/
theorem takeWhile_isWord (hu : IsRun u) (ht : startsInWord t = false) :
    (u ++ t).takeWhile isWord = u := by
  rw [List.takeWhile_append_of_pos hu.word]
  cases t with
  | nil => simp
  | cons d t =>
      have hd : isWord d = false := ht
      simp [hd]

/-- A word of a text, with the texts before and behind it. -/
structure IsWordIn (t before word after : Text) : Prop where
  parts : t = before ++ (word ++ after)
  run : IsRun word
  /-- The word is not the end of a longer one that begins further to the left. -/
  begins : endsInWord before = false
  /-- The word is not the beginning of a longer one. -/
  ends : startsInWord after = false

theorem not_isWordIn_nil : ¬ IsWordIn [] before word after := by
  intro h
  have hnil := (List.append_eq_nil_iff.1 h.parts.symm).2
  exact h.run.ne_nil (List.append_eq_nil_iff.1 hnil).1

/-- The words behind a character that is part of none. -/
theorem isWordIn_cons (hc : isWord c = false) : IsWordIn (c :: t) before word after ↔
    ∃ front, before = c :: front ∧ IsWordIn t front word after := by
  constructor
  · rintro ⟨hparts, hrun, hbegins, hends⟩
    cases before with
    | nil =>
        -- the word would begin with the character
        have hword := startsInWord_append hrun after
        rw [← List.nil_append (word ++ after), ← hparts] at hword
        exact absurd (hword.symm.trans hc) (by decide)
    | cons d front =>
        obtain ⟨rfl, hrest⟩ := List.cons.inj hparts
        exact ⟨front, rfl, hrest, hrun, endsInWord_cons hc front ▸ hbegins, hends⟩
  · rintro ⟨front, rfl, rfl, hrun, hbegins, hends⟩
    exact ⟨rfl, hrun, (endsInWord_cons hc front).trans hbegins, hends⟩

/-- The words of a text that begins with one: that word, and those behind it. -/
theorem isWordIn_append (hu : IsRun u) (ht : startsInWord t = false) :
    IsWordIn (u ++ t) before word after ↔ (before = [] ∧ word = u ∧ after = t)
      ∨ ∃ front, before = u ++ front ∧ IsWordIn t front word after := by
  constructor
  · rintro ⟨hparts, hrun, hbegins, hends⟩
    rcases List.append_eq_append_iff.1 hparts with ⟨front, rfl, rfl⟩ | ⟨back, rfl, hback⟩
    · have hne : front ≠ [] := by
        rintro rfl
        rw [List.nil_append, startsInWord_append hrun] at ht
        cases ht
      exact .inr ⟨front, rfl, rfl, hrun, endsInWord_append hne u ▸ hbegins, hends⟩
    · have hnil : before = [] := by
        refine Classical.byContradiction fun hne => ?_
        have hbefore : IsRun before := ⟨hne, fun c hc => hu.word c (List.mem_append_left _ hc)⟩
        rw [hbefore.endsInWord] at hbegins
        cases hbegins
      subst hnil
      rw [List.nil_append] at hu hparts
      have hword : word = back := by
        rw [← takeWhile_isWord hrun hends, hback, takeWhile_isWord hu ht]
      subst hword
      exact .inl ⟨rfl, rfl, List.append_cancel_left hback⟩
  · rintro (⟨rfl, rfl, rfl⟩ | ⟨front, rfl, rfl, hrun, hbegins, hends⟩)
    · exact ⟨rfl, hu, rfl, ht⟩
    · have hne : front ≠ [] := by
        rintro rfl
        rw [List.nil_append, startsInWord_append hrun] at ht
        cases ht
      exact ⟨(List.append_assoc _ _ _).symm, hrun, (endsInWord_append hne u).trans hbegins, hends⟩

end Text

end GitHooks
