/-
**The signifiers of a notice.**

A notice begins with signifiers: the word copyright, a letter c in parentheses or the copyright
sign, one or more of them, each with the white space behind it.  Here they are put as a grammar,
and the reader of signifiers is shown to take exactly what the grammar takes.  The grammar is
greedy: what is left begins neither with white space nor with another signifier, so that there is
one way at most to take signifiers off a text.

Main definitions:

* `Notice.IsSignifier`, `Notice.HasSignifier` — a signifier at the beginning of a text;
* `Notice.Signed` — signifiers, and what is left behind all of them;
* `Notice.IsLead` — the same behind white space.

Main results:

* `Notice.signifierLength_eq_zero_iff` — a text without a signifier at its beginning;
* `Notice.afterSignifiers?_eq_some_iff`, `Notice.afterSignifiers?_eq_none_iff` — what the reader
  answers.
-/

import GitHooks.Notice.Grammar
import GitHooks.Proofs.Text.Decimal
import GitHooks.Proofs.Text.Trim

set_option relaxedAutoImplicit false
set_option autoImplicit false

namespace GitHooks

namespace Notice

open Text

variable {t sign behind blank signs rest : Text}

/-! ### One signifier -/

/-- A signifier, and the text that stands behind it. -/
inductive IsSignifier : Text → Text → Prop
  /-- The word copyright in any case, where the word ends. -/
  | word {sign behind : Text} (spelled : sign.map Char.toLower = "copyright")
      (ends : startsInWord behind = false) : IsSignifier sign behind
  /-- A letter c in parentheses, in either case. -/
  | letter {sign behind : Text} (spelled : sign.map Char.toLower = "(c)") : IsSignifier sign behind
  /-- The copyright sign. -/
  | mark {behind : Text} : IsSignifier ['©'] behind

/-- Whether a text begins with a signifier. -/
def HasSignifier (t : Text) : Prop := ∃ sign behind, t = sign ++ behind ∧ IsSignifier sign behind

/-- A signifier begins with something else than white space. -/
theorem IsSignifier.exists_cons (h : IsSignifier sign behind) :
    ∃ c u, sign = c :: u ∧ isSpace c = false := by
  have hspelled : ∀ {word : Text} {d : Char} {w : Text}, word = d :: w → isSpace d = false →
      sign.map Char.toLower = word → ∃ c u, sign = c :: u ∧ isSpace c = false := by
    rintro word d w rfl hd hs
    cases sign with
    | nil => cases hs
    | cons c u =>
        obtain ⟨hc, -⟩ := List.cons.inj hs
        refine ⟨c, u, rfl, Bool.eq_false_iff.2 fun hspace => ?_⟩
        rw [← hc, toLower_of_isSpace hspace, hspace] at hd
        cases hd
  cases h with
  | word spelled _ => exact hspelled (d := 'c') rfl (by decide) spelled
  | letter spelled => exact hspelled (d := '(') rfl (by decide) spelled
  | mark => exact ⟨'©', [], rfl, by decide⟩

theorem IsSignifier.ne_nil (h : IsSignifier sign behind) : sign ≠ [] := by
  obtain ⟨c, u, rfl, -⟩ := h.exists_cons
  exact List.cons_ne_nil c u

/-- A text that begins with a signifier does not begin with white space. -/
theorem HasSignifier.exists_cons (h : HasSignifier t) : ∃ c u, t = c :: u ∧ isSpace c = false := by
  obtain ⟨sign, behind, rfl, hsign⟩ := h
  obtain ⟨c, u, rfl, hc⟩ := hsign.exists_cons
  exact ⟨c, u ++ behind, rfl, hc⟩

/-- The length of a signifier is told by the signifier. -/
theorem signifierLength_append (h : IsSignifier sign behind) :
    signifierLength (sign ++ behind) = sign.length := by
  cases h with
  | word spelled ends =>
      have hlength : sign.length = 9 := by
        rw [← List.length_map (f := Char.toLower), spelled]
        rfl
      rw [signifierLength, List.take_left' hlength, List.drop_left' hlength,
        if_pos ⟨spelled, ends⟩, hlength]
  | letter spelled =>
      have hlength : sign.length = 3 := by
        rw [← List.length_map (f := Char.toLower), spelled]
        rfl
      -- the longer word would begin with the same three letters
      have hword : ((sign ++ behind).take 9).map Char.toLower ≠ "copyright" := by
        intro h
        have hthree := congrArg (List.take 3) h
        rw [← List.map_take, List.take_take, Nat.min_eq_left (by decide), List.take_left' hlength,
          spelled] at hthree
        revert hthree
        decide
      rw [signifierLength, if_neg fun h => hword h.1, List.take_left' hlength, if_pos spelled,
        hlength]
  | mark =>
      have hfirst : ∀ (n : Nat) (d : Char) (w : Text), Char.toLower '©' ≠ d →
          ((['©'] ++ behind).take (n + 1)).map Char.toLower ≠ d :: w := fun n d w hd h =>
        hd (List.cons.inj h).1
      have hword : ((['©'] ++ behind).take 9).map Char.toLower ≠ "copyright" :=
        hfirst 8 'c' _ (by decide)
      have hletter : ((['©'] ++ behind).take 3).map Char.toLower ≠ "(c)" :=
        hfirst 2 '(' _ (by decide)
      have hmark : startsWith (['©'] ++ behind) "©" = true := startsWith_iff.2 ⟨behind, rfl⟩
      rw [signifierLength, if_neg fun h => hword h.1, if_neg hletter, if_pos hmark]
      rfl

/-- A signifier that is found is there. -/
theorem hasSignifier_of_signifierLength (h : signifierLength t ≠ 0) : HasSignifier t := by
  rw [signifierLength] at h
  split at h
  · next hword =>
    exact ⟨t.take 9, t.drop 9, (List.take_append_drop 9 t).symm, .word hword.1 hword.2⟩
  · split at h
    · next hletter => exact ⟨t.take 3, t.drop 3, (List.take_append_drop 3 t).symm, .letter hletter⟩
    · split at h
      · next hmark =>
        obtain ⟨behind, rfl⟩ := startsWith_iff.1 hmark
        exact ⟨['©'], behind, rfl, .mark⟩
      · exact absurd rfl h

/-- **No signifier is found where there is none.** -/
theorem signifierLength_eq_zero_iff : signifierLength t = 0 ↔ ¬ HasSignifier t := by
  constructor
  · rintro hzero ⟨sign, behind, rfl, hsign⟩
    obtain ⟨c, u, rfl, -⟩ := hsign.exists_cons
    rw [signifierLength_append hsign] at hzero
    cases hzero
  · intro hnone
    exact Classical.byContradiction fun hne => hnone (hasSignifier_of_signifierLength hne)

/-! ### Signifiers one after the other -/

/-- One or more signifiers, each with the white space behind it, and what is left behind all of
them. -/
inductive Signed : Text → Text → Prop
  | last {sign blank rest : Text} (signifier : IsSignifier sign (blank ++ rest))
      (gap : isBlank blank = true) (begins : ∀ c ∈ rest.head?, isSpace c = false)
      (complete : ¬ HasSignifier rest) : Signed (sign ++ blank) rest
  | more {sign blank signs rest : Text} (signifier : IsSignifier sign (blank ++ (signs ++ rest)))
      (gap : isBlank blank = true) (next : Signed signs rest) : Signed (sign ++ blank ++ signs) rest

/-- What stands in front of the rest of a notice: white space, and all its signifiers. -/
def IsLead (lead rest : Text) : Prop :=
  ∃ blank signs, lead = blank ++ signs ∧ isBlank blank = true ∧ Signed signs rest

theorem Signed.hasSignifier (h : Signed signs rest) : HasSignifier (signs ++ rest) := by
  cases h with
  | last signifier => exact ⟨_, _, List.append_assoc _ _ _, signifier⟩
  | more signifier => exact ⟨_, _, by simp only [List.append_assoc], signifier⟩

/-- There is a signifier in front of the rest of a notice. -/
theorem IsLead.ne_nil {lead : Text} (h : IsLead lead rest) : lead ≠ [] := by
  obtain ⟨blank, signs, rfl, -, hsigned⟩ := h
  refine List.append_ne_nil_of_right_ne_nil blank ?_
  cases hsigned with
  | last signifier =>
      exact List.append_ne_nil_of_left_ne_nil signifier.ne_nil _
  | more signifier =>
      rw [List.append_assoc]
      exact List.append_ne_nil_of_left_ne_nil signifier.ne_nil _

/-- White space in front of a signifier is what trimming takes away. -/
theorem trimStart_append_of_hasSignifier (hb : isBlank blank = true) (h : HasSignifier t) :
    trimStart (blank ++ t) = t := by
  obtain ⟨c, u, rfl, hc⟩ := h.exists_cons
  rw [trimStart_append_of_isBlank hb, trimStart_cons hc]

/-! ### Passing over signifiers -/

/-- The characters of a signifier are passed over one by one. -/
theorem skipSignifiers_append (sign t : Text) :
    skipSignifiers sign.length (sign ++ t) = skipSignifiers 0 t := by
  induction sign with
  | nil => rfl
  | cons c sign ih => exact ih

theorem skipSignifiers_of_isSignifier (h : IsSignifier sign behind) :
    skipSignifiers 0 (sign ++ behind) = skipSignifiers 0 behind := by
  have hlength := signifierLength_append h
  have hskip := skipSignifiers_append sign behind
  obtain ⟨c, u, rfl, hc⟩ := h.exists_cons
  rw [List.cons_append] at hlength hskip ⊢
  rw [skipSignifiers, hc, if_neg Bool.false_ne_true, hlength]
  exact hskip

theorem skipSignifiers_of_isBlank {blank : Text} (h : isBlank blank = true) (t : Text) :
    skipSignifiers 0 (blank ++ t) = skipSignifiers 0 t := by
  induction blank with
  | nil => rfl
  | cons c blank ih =>
      rw [isBlank, List.all_cons, Bool.and_eq_true] at h
      rw [List.cons_append, skipSignifiers, if_pos h.1, ih h.2]

/-- Nothing is passed over where there is neither white space nor a signifier. -/
theorem skipSignifiers_eq_self (begins : ∀ c ∈ rest.head?, isSpace c = false)
    (complete : ¬ HasSignifier rest) : skipSignifiers 0 rest = rest := by
  cases rest with
  | nil => rfl
  | cons c rest =>
      rw [skipSignifiers, begins c rfl, if_neg Bool.false_ne_true,
        signifierLength_eq_zero_iff.2 complete]

/-- Signifiers are passed over up to what is left behind all of them. -/
theorem Signed.skipSignifiers_eq (h : Signed signs rest) :
    skipSignifiers 0 (signs ++ rest) = rest := by
  induction h with
  | last signifier gap begins complete =>
      rw [List.append_assoc, skipSignifiers_of_isSignifier signifier,
        skipSignifiers_of_isBlank gap, skipSignifiers_eq_self begins complete]
  | more signifier gap next ih =>
      rw [List.append_assoc, List.append_assoc, skipSignifiers_of_isSignifier signifier,
        skipSignifiers_of_isBlank gap, ih]

/-- A text that begins with a signifier begins with signifiers up to some rest. -/
theorem exists_signed (h : HasSignifier t) :
    ∃ signs rest, t = signs ++ rest ∧ Signed signs rest := by
  induction hn : t.length using Nat.strongRecOn generalizing t with
  | _ n ih =>
      subst hn
      obtain ⟨sign, behind, rfl, hsign⟩ := h
      obtain ⟨blank, hblank, hbehind⟩ := exists_append_trimStart behind
      have hnext : ∀ c ∈ (trimStart behind).head?, isSpace c = false := fun _ =>
        isSpace_of_mem_head?_trimStart
      -- only the text behind the white space matters from here on
      generalize trimStart behind = next at hbehind hnext
      subst hbehind
      by_cases hmore : HasSignifier next
      · have hlength : next.length < (sign ++ (blank ++ next)).length := by
          obtain ⟨c, u, rfl, -⟩ := hsign.exists_cons
          simp only [List.length_append, List.length_cons]
          omega
        obtain ⟨signs, rest, rfl, hsigned⟩ := ih next.length hlength hmore rfl
        exact ⟨sign ++ blank ++ signs, rest, by simp only [List.append_assoc],
          .more hsign hblank hsigned⟩
      · exact ⟨sign ++ blank, next, by simp only [List.append_assoc],
          .last hsign hblank hnext hmore⟩

/-! ### The reader of signifiers -/

/-- **The reader of signifiers takes what the grammar takes.** -/
theorem afterSignifiers?_eq_some_iff :
    afterSignifiers? t = some rest ↔ ∃ lead, t = lead ++ rest ∧ IsLead lead rest := by
  constructor
  · intro h
    rw [afterSignifiers?] at h
    split at h
    · cases h
    · next hlength =>
      obtain ⟨signs, left, hsigns, hsigned⟩ :=
        exists_signed (hasSignifier_of_signifierLength hlength)
      obtain ⟨blank, hblank, ht⟩ := exists_append_trimStart t
      rw [hsigns] at ht
      obtain rfl : left = rest := by
        rw [ht, skipSignifiers_of_isBlank hblank, hsigned.skipSignifiers_eq] at h
        exact Option.some.inj h
      exact ⟨blank ++ signs, by rw [List.append_assoc, ht], blank, signs, rfl, hblank, hsigned⟩
  · rintro ⟨_, rfl, blank, signs, rfl, hblank, hsigned⟩
    have hstart := trimStart_append_of_hasSignifier hblank hsigned.hasSignifier
    have hlength : signifierLength (signs ++ rest) ≠ 0 := fun hzero =>
      signifierLength_eq_zero_iff.1 hzero hsigned.hasSignifier
    rw [afterSignifiers?, List.append_assoc, hstart, if_neg hlength,
      skipSignifiers_of_isBlank hblank, hsigned.skipSignifiers_eq]

/-- **The reader of signifiers answers with nothing** where no signifier stands behind white
space. -/
theorem afterSignifiers?_eq_none_iff : afterSignifiers? t = none ↔
    ∀ blank behind, t = blank ++ behind → isBlank blank = true → ¬ HasSignifier behind := by
  have hnone : afterSignifiers? t = none ↔ ¬ HasSignifier (trimStart t) := by
    rw [← signifierLength_eq_zero_iff, afterSignifiers?]
    split
    · next hzero => exact iff_of_true rfl hzero
    · next hne => exact iff_of_false (Option.some_ne_none _) hne
  rw [hnone]
  constructor
  · rintro h blank behind rfl hblank hsign
    rw [trimStart_append_of_hasSignifier hblank hsign] at h
    exact h hsign
  · intro h
    obtain ⟨blank, hblank, ht⟩ := exists_append_trimStart t
    exact h blank (trimStart t) ht hblank

end Notice

end GitHooks
