/-
**The first issue of a branch.**

The reader of issue IDs tries at every character of the name of a branch.  It succeeds where a run
of letters that is not too long reaches up to a hyphen with a digit behind it.  So what it finds is
told by a hyphen alone: the first one between a letter and a digit.  The ID has the letters before
it and the digits behind it, as many as it may have; if there are more letters the search has failed
at the first of them, and if there are more digits the others are left out.

Main definitions:

* `IssueId.IsJoint`, `IssueId.IsFirstJoint` — a hyphen between a letter and a digit, and the first
  in a text;
* `IssueId.around` — the ID around a hyphen, as it is written.

Main results:

* `IssueId.at?_eq_some_iff` — the ID that a text begins with;
* `IssueId.IsFirstJoint.findWritten?_eq` — the first ID is around the first such hyphen;
* `IssueId.find?_around_first_joint` — what the issue of a branch is.
-/

import GitHooks.Message.IssueId
import GitHooks.Proofs.Text.Longest

set_option relaxedAutoImplicit false
set_option autoImplicit false

namespace GitHooks

namespace IssueId

open Text

variable {t front back written : Text}

/-! ### Joints -/

/-- A hyphen between a letter and a digit, told by the texts before and behind it. -/
structure IsJoint (front back : Text) : Prop where
  letter : ∃ c, front.getLast? = some c ∧ c.isAlpha = true
  digit : ∃ d, back.head? = some d ∧ d.isDigit = true

/-- The first hyphen of a text that stands between a letter and a digit. -/
structure IsFirstJoint (t front back : Text) : Prop where
  parts : t = front ++ '-' :: back
  isJoint : IsJoint front back
  /-- No such hyphen stands further to the left. -/
  first : ∀ before behind, t = before ++ '-' :: behind → IsJoint before behind →
    front.length ≤ before.length

/-- The ID around a hyphen, as it is written: the letters before it and the digits behind it. -/
def around (front back : Text) : Text :=
  lastRun Char.isAlpha maxLetters front ++ '-' :: firstRun Char.isDigit maxDigits back

/-- What stands in front of a text before a joint does not matter. -/
theorem IsJoint.append_left (h : IsJoint front back) (u : Text) : IsJoint (u ++ front) back := by
  obtain ⟨⟨c, hlast, hc⟩, hdigit⟩ := h
  refine ⟨⟨c, ?_, hc⟩, hdigit⟩
  rw [List.getLast?_append, hlast]
  rfl

/-- A text of letters ends with a letter, unless it is empty. -/
theorem exists_getLast?_of_forall (hne : t ≠ []) (h : ∀ c ∈ t, c.isAlpha = true) :
    ∃ c, t.getLast? = some c ∧ c.isAlpha = true :=
  ⟨t.getLast hne, List.getLast?_eq_some_getLast hne, h _ (List.getLast_mem hne)⟩

theorem hyphen_not_mem (h : ∀ c ∈ t, c.isAlpha = true) : '-' ∉ t :=
  fun hmem => absurd (h _ hmem) (by decide)

/-- Where there is a joint there is a first one. -/
theorem exists_isFirstJoint (h : ∃ front back, t = front ++ '-' :: back ∧ IsJoint front back) :
    ∃ front back, IsFirstJoint t front back := by
  obtain ⟨front, back, ⟨hparts, hjoint⟩, hfirst⟩ := exists_first h
  exact ⟨front, back, hparts, hjoint, fun before behind hbefore hother =>
    hfirst before behind ⟨hbefore, hother⟩⟩

/-! ### The ID at a place -/

/-- What is read where letters reach up to a hyphen. -/
theorem at?_append_hyphen {letters : Text} (h : ∀ c ∈ letters, c.isAlpha = true) (back : Text) :
    at? (letters ++ '-' :: back) = if letters.isEmpty || letters.length > maxLetters
        || (firstRun Char.isDigit maxDigits back).isEmpty then none
      else some (letters ++ '-' :: firstRun Char.isDigit maxDigits back) := by
  have hletters : (letters ++ '-' :: back).takeWhile Char.isAlpha = letters := by
    rw [List.takeWhile_append_of_pos h, List.takeWhile_cons_of_neg (by decide), List.append_nil]
  rw [at?]
  simp only [hletters, List.drop_left]
  rfl

/-- Something is read only where letters reach up to a hyphen. -/
theorem exists_hyphen_of_at? (h : at? t = some written) : ∃ letters back,
    t = letters ++ '-' :: back ∧ ∀ c ∈ letters, c.isAlpha = true := by
  obtain ⟨rest, hrest⟩ := List.takeWhile_prefix Char.isAlpha (l := t)
  have hdrop : (t.takeWhile Char.isAlpha ++ rest).drop (t.takeWhile Char.isAlpha).length = rest :=
    List.drop_left
  rw [hrest] at hdrop
  rw [at?] at h
  simp only [hdrop] at h
  split at h
  · next back => exact ⟨_, back, hrest.symm, fun c hc => List.mem_takeWhile_imp hc⟩
  · cases h

/-- **The ID that a text begins with.** -/
theorem at?_eq_some_iff : at? t = some written ↔ ∃ letters back, t = letters ++ '-' :: back
    ∧ (∀ c ∈ letters, c.isAlpha = true) ∧ letters.length ≤ maxLetters ∧ IsJoint letters back
    ∧ written = letters ++ '-' :: firstRun Char.isDigit maxDigits back := by
  have hdigits : ∀ back : Text, firstRun Char.isDigit maxDigits back ≠ []
      ↔ ∃ d, back.head? = some d ∧ d.isDigit = true := fun _ => firstRun_ne_nil_iff (by decide)
  constructor
  · intro h
    obtain ⟨letters, back, rfl, hall⟩ := exists_hyphen_of_at? h
    rw [at?_append_hyphen hall] at h
    split at h
    · cases h
    · next hguard =>
      simp only [Bool.or_eq_true, List.isEmpty_iff, decide_eq_true_eq, not_or, not_lt] at hguard
      obtain ⟨⟨hne, hlength⟩, hrun⟩ := hguard
      exact ⟨letters, back, rfl, hall, hlength,
        ⟨exists_getLast?_of_forall hne hall, (hdigits back).1 hrun⟩, (Option.some.inj h).symm⟩
  · rintro ⟨letters, back, rfl, hall, hlength, ⟨⟨c, hlast, -⟩, hdigit⟩, rfl⟩
    have hne : letters ≠ [] := by
      rintro rfl
      cases hlast
    have hrun := (hdigits back).2 hdigit
    rw [at?_append_hyphen hall, if_neg (by simp [hne, hrun, hlength])]

/-! ### The search -/

/-- The search passes over places where there is no ID. -/
theorem findWritten?_append (h : ∀ u, u ≠ [] → u <:+ front → at? (u ++ t) = none) :
    findWritten? (front ++ t) = findWritten? t := by
  induction front with
  | nil => rfl
  | cons c front ih =>
      have hnone : at? (c :: (front ++ t)) = none :=
        h (c :: front) (List.cons_ne_nil _ _) List.suffix_rfl
      rw [List.cons_append, findWritten?, hnone, Option.none_or]
      exact ih fun u hne hu => h u hne (hu.trans (List.suffix_cons c front))

/-- An ID is found only where there is a joint. -/
theorem exists_isJoint_of_findWritten? (h : findWritten? t = some written) :
    ∃ front back, t = front ++ '-' :: back ∧ IsJoint front back := by
  induction t with
  | nil => cases h
  | cons c t ih =>
      rw [findWritten?, Option.or_eq_some_iff] at h
      rcases h with h | ⟨-, h⟩
      · obtain ⟨letters, back, hparts, -, -, hjoint, -⟩ := at?_eq_some_iff.1 h
        exact ⟨letters, back, hparts, hjoint⟩
      · obtain ⟨front, back, rfl, hjoint⟩ := ih h
        exact ⟨c :: front, back, rfl, hjoint.append_left [c]⟩

/-- Letters that reach up to a hyphen, and no less far than another hyphen, reach up to that. -/
theorem eq_of_append_hyphen {letters behind : Text}
    (h : front ++ '-' :: back = letters ++ '-' :: behind)
    (hmem : '-' ∉ letters) (hle : front.length ≤ letters.length) : letters = front := by
  rcases List.append_eq_append_iff.1 h with ⟨more, hmore, hbehind⟩ | ⟨more, hmore, -⟩
  · cases more with
    | nil => rw [hmore, List.append_nil]
    | cons c more =>
        obtain rfl : '-' = c := (List.cons.inj hbehind).1
        exact absurd (hmore ▸ by simp) hmem
  · have hlen := congrArg List.length hmore
    rw [List.length_append] at hlen
    have hnil : more = [] := List.length_eq_zero_iff.1 (by omega)
    rw [hmore, hnil, List.append_nil]

/-- No ID begins before the letters of the first joint: its letters would reach up to that joint,
and would be more than the ID there has. -/
theorem IsFirstJoint.at?_eq_none {rest u : Text} (h : IsFirstJoint t front back)
    (hfront : front = rest ++ lastRun Char.isAlpha maxLetters front) (hne : u ≠ [])
    (hu : u <:+ rest) :
    at? (u ++ (lastRun Char.isAlpha maxLetters front ++ '-' :: back)) = none := by
  generalize hrun : lastRun Char.isAlpha maxLetters front = run at hfront
  rw [Option.eq_none_iff_forall_ne_some]
  intro written hwritten
  obtain ⟨letters, behind, hparts, hall, hlength, hjoint, -⟩ := at?_eq_some_iff.1 hwritten
  obtain ⟨before, rfl⟩ := hu
  -- the hyphen behind these letters is not to the left of the first joint, nor to its right
  have hle : (u ++ run).length ≤ letters.length := by
    have hother : t = (before ++ letters) ++ '-' :: behind := by
      rw [h.parts, hfront, List.append_assoc, List.append_assoc, List.append_assoc, hparts]
    have hfirst := h.first _ _ hother (hjoint.append_left before)
    rw [hfront] at hfirst
    simp only [List.length_append] at hfirst ⊢
    omega
  rw [← List.append_assoc] at hparts
  have hletters : letters = u ++ run := eq_of_append_hyphen hparts (hyphen_not_mem hall) hle
  -- so they are a longer run before the first joint
  have hends : EndsWith Char.isAlpha maxLetters front letters := by
    refine ⟨⟨before, ?_⟩, hall, hlength⟩
    rw [hletters, hfront, List.append_assoc]
  have hlongest := (isLongest_lastRun Char.isAlpha maxLetters front).longest letters hends
  rw [hrun, hletters, List.length_append] at hlongest
  have hpos := List.length_pos_iff.2 hne
  omega

/-- **The first ID of a text** is around its first joint. -/
theorem IsFirstJoint.findWritten?_eq (h : IsFirstJoint t front back) :
    findWritten? t = some (around front back) := by
  obtain ⟨⟨⟨rest, hrest⟩, hall, hlength⟩, -⟩ := isLongest_lastRun Char.isAlpha maxLetters front
  have hne : lastRun Char.isAlpha maxLetters front ≠ [] :=
    (lastRun_ne_nil_iff (by decide)).2 h.isJoint.letter
  have hat : at? (lastRun Char.isAlpha maxLetters front ++ '-' :: back)
      = some (around front back) :=
    at?_eq_some_iff.2 ⟨_, back, rfl, hall, hlength,
      ⟨exists_getLast?_of_forall hne hall, h.isJoint.digit⟩, rfl⟩
  have hparts : t = rest ++ (lastRun Char.isAlpha maxLetters front ++ '-' :: back) := by
    rw [← List.append_assoc, hrest, h.parts]
  rw [hparts, findWritten?_append fun u => h.at?_eq_none hrest.symm]
  obtain ⟨d, letters, hletters⟩ := List.exists_cons_of_ne_nil hne
  rw [hletters, List.cons_append] at hat ⊢
  rw [findWritten?, hat, Option.some_or]

theorem findWritten?_eq_some_iff : findWritten? t = some written
    ↔ ∃ front back, IsFirstJoint t front back ∧ written = around front back := by
  constructor
  · intro h
    obtain ⟨front, back, hfirst⟩ := exists_isFirstJoint (exists_isJoint_of_findWritten? h)
    exact ⟨front, back, hfirst, Option.some.inj (h.symm.trans hfirst.findWritten?_eq)⟩
  · rintro ⟨front, back, hfirst, rfl⟩
    exact hfirst.findWritten?_eq

/-! ### The issue of a branch -/

theorem toUpper_of_isDigit {d : Char} (h : d.isDigit = true) : d.toUpper = d := by
  have hle : d.val ≤ '9'.val := of_decide_eq_true (Bool.and_eq_true_iff.1 h).2
  refine dif_neg ?_
  rintro ⟨ha, -⟩
  exact absurd (UInt32.le_trans ha hle) (by decide)

/-- An ID in capitals: hyphen and digits are kept. -/
theorem map_toUpper_around (front back : Text) : (around front back).map Char.toUpper
    = (lastRun Char.isAlpha maxLetters front).map Char.toUpper
      ++ '-' :: firstRun Char.isDigit maxDigits back := by
  have hdigits : (firstRun Char.isDigit maxDigits back).map Char.toUpper
      = firstRun Char.isDigit maxDigits back := by
    conv => rhs; rw [← List.map_id (firstRun Char.isDigit maxDigits back)]
    exact List.map_congr_left fun d hd => toUpper_of_isDigit
      ((isLongest_firstRun Char.isDigit maxDigits back).holds.all d hd)
  rw [around, List.map_append, List.map_cons, hdigits]
  rfl

/-- **The issue of a branch.**  It has one exactly when some hyphen stands between a letter and a
digit.  The ID is around the first such hyphen: the longest run of letters that ends before it and
that an ID may have, in capitals, the hyphen, and the longest such run of digits that begins behind
it. -/
theorem find?_around_first_joint (branch : Text) :
    ((∃ id, find? branch = some id)
        ↔ ∃ front back, branch = front ++ '-' :: back ∧ IsJoint front back)
      ∧ ∀ id, find? branch = some id ↔ ∃ front back letters digits, IsFirstJoint branch front back
          ∧ IsLongest (EndsWith Char.isAlpha maxLetters front) letters
          ∧ IsLongest (BeginsWith Char.isDigit maxDigits back) digits
          ∧ id = letters.map Char.toUpper ++ '-' :: digits := by
  constructor
  · constructor
    · rintro ⟨id, hid⟩
      obtain ⟨written, hwritten, -⟩ := Option.map_eq_some_iff.1 hid
      exact exists_isJoint_of_findWritten? hwritten
    · intro h
      obtain ⟨front, back, hfirst⟩ := exists_isFirstJoint h
      exact ⟨_, by rw [find?, hfirst.findWritten?_eq, Option.map_some]⟩
  · intro id
    rw [find?, Option.map_eq_some_iff]
    constructor
    · rintro ⟨written, hwritten, rfl⟩
      obtain ⟨front, back, hfirst, rfl⟩ := findWritten?_eq_some_iff.1 hwritten
      exact ⟨front, back, _, _, hfirst, isLongest_lastRun _ _ _, isLongest_firstRun _ _ _,
        map_toUpper_around front back⟩
    · rintro ⟨front, back, letters, digits, hfirst, hletters, hdigits, rfl⟩
      obtain rfl := isLongest_endsWith_iff.1 hletters
      obtain rfl := isLongest_beginsWith_iff.1 hdigits
      exact ⟨_, hfirst.findWritten?_eq, map_toUpper_around front back⟩

/-- Of many letters and digits the ones nearest to the hyphen are taken. -/
example : find? "wip-x/abcdefghijklmn-1234567-8" = some "EFGHIJKLMN-12345" := by decide

end IssueId

end GitHooks
