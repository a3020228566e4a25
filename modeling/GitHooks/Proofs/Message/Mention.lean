/-
**Mentions of an issue.**

Whether a message mentions an issue is decided line by line, by what the lines say; so it does not
matter how the message is trimmed, and a message that is put together by a line feed mentions what
its two parts mention.  An ID has no white space and no hash sign in it.  It is therefore kept by
trimming, and put behind the beginning of a line it leaves a comment a comment, and any other line
no comment.

Main definitions:

* `IssueId.IsSolid` — texts without white space and hash signs, such as IDs;
* `IssueId.isMention` — whether a trimmed line counts as a mention.

Main results:

* `IssueId.isSolid_of_find?` — the ID of a branch is solid;
* `IssueId.mentionedIn_eq` — a message mentions what one of its lines says;
* `IssueId.mentionedIn_append_of_comment`, `IssueId.mentionedIn_append_solid` — an ID counts
  exactly when the line it is put on is no comment.
-/

import GitHooks.Proofs.Message.FirstIssue
import GitHooks.Proofs.Text.Contents

set_option relaxedAutoImplicit false
set_option autoImplicit false

namespace GitHooks

namespace IssueId

open Text

variable {id t u : Text}

/-! ### The characters of an ID -/

/-- A text that is not empty and has no white space and no hash sign in it. -/
structure IsSolid (id : Text) : Prop where
  ne_nil : id ≠ []
  isSpace_eq : ∀ c ∈ id, isSpace c = false
  ne_hash : ∀ c ∈ id, c ≠ '#'

theorem IsSolid.not_mem_feed (h : IsSolid id) : '\n' ∉ id :=
  fun hmem => absurd (h.isSpace_eq _ hmem) (by decide)

/-- Letters, digits and hyphens are neither white space nor hash signs when written in capitals. -/
theorem toUpper_of_isAlphanum {c : Char} (h : c.isAlphanum = true ∨ c = '-') :
    isSpace c.toUpper = false ∧ c.toUpper ≠ '#' := by
  have hall : ∀ n < 128, ((Char.ofNat n).isAlphanum = true ∨ Char.ofNat n = '-') →
      isSpace (Char.ofNat n).toUpper = false ∧ (Char.ofNat n).toUpper ≠ '#' := by decide
  have hc : c.toNat < 128 := by
    change c.val.toNat < 128
    rcases h with h | rfl
    · have hle : c.val ≤ 'Z'.val ∨ c.val ≤ 'z'.val ∨ c.val ≤ '9'.val := by
        rcases Bool.or_eq_true_iff.1 h with h | h
        · rcases Bool.or_eq_true_iff.1 h with h | h
          · exact .inl (of_decide_eq_true h).2
          · exact .inr (.inl (of_decide_eq_true (Bool.and_eq_true_iff.1 h).2))
        · exact .inr (.inr (of_decide_eq_true (Bool.and_eq_true_iff.1 h).2))
      simp only [UInt32.le_iff_toNat_le] at hle
      rcases hle with hle | hle | hle
      · exact Nat.lt_of_le_of_lt hle (by decide)
      · exact Nat.lt_of_le_of_lt hle (by decide)
      · exact Nat.lt_of_le_of_lt hle (by decide)
    · decide
  have hchar := hall c.toNat hc
  rw [Char.ofNat_toNat] at hchar
  exact hchar h

/-- **The ID of a branch is solid.** -/
theorem isSolid_of_find? (h : find? t = some id) : IsSolid id := by
  obtain ⟨written, hwritten, rfl⟩ := Option.map_eq_some_iff.1 h
  obtain ⟨front, back, -, rfl⟩ := findWritten?_eq_some_iff.1 hwritten
  have hletters := (isLongest_lastRun Char.isAlpha maxLetters front).holds.all
  have hdigits := (isLongest_firstRun Char.isDigit maxDigits back).holds.all
  have hall : ∀ c ∈ (around front back).map Char.toUpper, isSpace c = false ∧ c ≠ '#' := by
    intro d hd
    obtain ⟨c, hc, rfl⟩ := List.mem_map.1 hd
    refine toUpper_of_isAlphanum ?_
    rcases List.mem_append.1 hc with hc | hc
    · exact .inl (by simp [Char.isAlphanum, hletters c hc])
    · rcases List.mem_cons.1 hc with rfl | hc
      · exact .inr rfl
      · exact .inl (by simp [Char.isAlphanum, hdigits c hc])
  exact ⟨by simp [around], fun c hc => (hall c hc).1, fun c hc => (hall c hc).2⟩

/-- A solid text is kept where the text around it is trimmed. -/
theorem IsSolid.trim_append (h : IsSolid id) (t u : Text) :
    trim (t ++ (id ++ u)) = trimStart t ++ (id ++ trimEnd u) := by
  obtain ⟨first, rest, hfirst⟩ := List.exists_cons_of_ne_nil h.ne_nil
  obtain ⟨front, last, hlast⟩ := (List.eq_nil_or_concat id).resolve_left h.ne_nil
  rw [List.concat_eq_append] at hlast
  have hstart : trimStart (t ++ (id ++ u)) = trimStart t ++ (id ++ u) := by
    rw [hfirst, List.cons_append,
      trimStart_append_cons (h.isSpace_eq first (hfirst ▸ List.mem_cons_self))]
  have hend : trimEnd (trimStart t ++ (id ++ u)) = trimStart t ++ (id ++ trimEnd u) := by
    rw [hlast, List.append_assoc, List.singleton_append, ← List.append_assoc,
      trimEnd_append_cons (h.isSpace_eq last (hlast ▸ by simp))]
    simp only [List.append_assoc, List.singleton_append]
  rw [trim, hstart, hend]

/-! ### Comment lines -/

theorem isComment_iff : isComment t = true ↔ t.head? = some '#' := by
  cases t with
  | nil => decide
  | cons c t =>
      constructor
      · intro h
        obtain ⟨rfl, -⟩ : '#' = c ∧ [] <+: t := List.cons_prefix_cons.1 (startsWith_iff.1 h)
        rfl
      · intro h
        obtain rfl := Option.some.inj h
        exact startsWith_iff.2 ⟨t, rfl⟩

theorem isComment_trim (t : Text) : isComment (trim t) = isComment (trimStart t) := by
  rw [Bool.eq_iff_iff, isComment_iff, isComment_iff, head?_trim]

/-- What is put behind a comment belongs to it. -/
theorem isComment_trim_append (h : isComment (trim t) = true) (u : Text) :
    isComment (trim (t ++ u)) = true := by
  rw [isComment_trim, isComment_iff] at h ⊢
  have hne : trimStart t ≠ [] := by
    intro hnil
    rw [hnil] at h
    exact absurd h (by simp)
  rw [trimStart_append hne, List.head?_append_of_ne_nil _ hne]
  exact h

/-- A line is no comment when both its parts are none. -/
theorem isComment_trim_append_eq_false (ht : isComment (trim t) = false)
    (hu : isComment (trim u) = false) : isComment (trim (t ++ u)) = false := by
  cases hstart : trimStart t with
  | nil =>
      have hblank : isBlank t = true := by
        rw [isBlank_iff_trim_eq_nil, trim, hstart, trimEnd_nil]
      rwa [trim_append_left hblank]
  | cons c rest =>
      rw [← Bool.not_eq_true, isComment_trim, isComment_iff, hstart] at ht
      rw [← Bool.not_eq_true, isComment_trim, isComment_iff, trimStart_append (by simp [hstart]),
        hstart]
      exact ht

/-- A line that begins with a solid text is no comment. -/
theorem IsSolid.isComment_append (h : IsSolid id) (u : Text) :
    isComment (trim (id ++ u)) = false := by
  obtain ⟨first, rest, hfirst⟩ := List.exists_cons_of_ne_nil h.ne_nil
  have hmem : first ∈ id := hfirst ▸ List.mem_cons_self
  rw [← Bool.not_eq_true, isComment_trim, isComment_iff, hfirst, List.cons_append,
    trimStart_cons (h.isSpace_eq first hmem)]
  simpa using h.ne_hash first hmem

/-! ### Messages -/

/-- Whether a trimmed line counts as a mention of an ID. -/
def isMention (id line : Text) : Bool := !isComment line && occursIn id line

theorem isMention_nil (h : id ≠ []) : isMention id [] = false := by
  cases id with
  | nil => exact absurd rfl h
  | cons c id => rfl

/-- **A message mentions what one of its lines says.** -/
theorem mentionedIn_eq (h : id ≠ []) (t : Text) :
    mentionedIn id t = (contents (lines t)).any (isMention id) := by
  rw [mentionedIn, contents, List.any_filter, List.any_filter]
  refine congrArg (List.any _) (funext fun line => ?_)
  by_cases hline : line = []
  · subst hline
    rw [show (!isComment [] && occursIn id []) = isMention id [] from rfl, isMention_nil h,
      Bool.and_false]
  · simp [isMention, hline]

theorem mentionedIn_append_feed (h : id ≠ []) (u t : Text) :
    mentionedIn id (u ++ '\n' :: t) = (mentionedIn id u || mentionedIn id t) := by
  rw [mentionedIn_eq h, contents_lines_append_feed, List.any_append, mentionedIn_eq h,
    mentionedIn_eq h]

theorem mentionedIn_trim (h : id ≠ []) (t : Text) : mentionedIn id (trim t) = mentionedIn id t := by
  rw [mentionedIn_eq h, contents_lines_trim, mentionedIn_eq h]

theorem mentionedIn_of_not_mem (h : id ≠ []) (ht : '\n' ∉ t) :
    mentionedIn id t = isMention id (trim t) := by
  rw [mentionedIn_eq h, contents_lines_of_not_mem ht, contents_singleton, List.any_filter]
  by_cases htrim : trim t = []
  · rw [htrim, isMention_nil h]
    rfl
  · simp [htrim]

/-- What is put behind a comment, on its line, makes no mention. -/
theorem mentionedIn_append_of_comment (h : id ≠ [])
    (ht : isComment (trim (lastLine t)) = true) (hu : '\n' ∉ u) (v : Text) :
    mentionedIn id (t ++ (u ++ v)) = mentionedIn id (t ++ v) := by
  induction t using line_induction with
  | feed front t _ ih =>
      rw [lastLine_append_feed] at ht
      rw [List.append_assoc, List.cons_append, mentionedIn_append_feed h, ih ht,
        ← mentionedIn_append_feed h, List.append_assoc, List.cons_append]
  | line t hline =>
      rw [lastLine_of_not_mem hline] at ht
      have hcomment : ∀ line, '\n' ∉ line → mentionedIn id (t ++ line) = false := by
        intro line hmem
        rw [mentionedIn_of_not_mem h (by simp [hline, hmem]), isMention,
          isComment_trim_append ht line]
        rfl
      cases v using line_induction with
      | line v hv =>
          rw [hcomment _ (by simp [hu, hv]), hcomment v hv]
      | feed front v hfront _ =>
          rw [← List.append_assoc u, ← List.append_assoc t, mentionedIn_append_feed h,
            hcomment _ (by simp [hu, hfront]), ← List.append_assoc t, mentionedIn_append_feed h,
            hcomment front hfront]

/-- **An ID that is put on a line counts** unless the line is a comment. -/
theorem mentionedIn_append_solid (hid : IsSolid id) (ht : isComment (trim (lastLine t)) = false)
    (v : Text) : mentionedIn id (t ++ (id ++ v)) = true := by
  induction t using line_induction with
  | feed front t _ ih =>
      rw [lastLine_append_feed] at ht
      rw [List.append_assoc, List.cons_append, mentionedIn_append_feed hid.ne_nil, ih ht,
        Bool.or_true]
  | line t hline =>
      rw [lastLine_of_not_mem hline] at ht
      have hmention : ∀ line, '\n' ∉ line → mentionedIn id (t ++ (id ++ line)) = true := by
        intro line hmem
        have hfeed := hid.not_mem_feed
        rw [mentionedIn_of_not_mem hid.ne_nil (by simp [hline, hmem, hfeed]), isMention,
          isComment_trim_append_eq_false ht (hid.isComment_append line), hid.trim_append]
        exact occursIn_iff.2 ⟨trimStart t, trimEnd line, List.append_assoc _ _ _⟩
      cases v using line_induction with
      | line v hv => exact hmention v hv
      | feed front v hfront _ =>
          rw [← List.append_assoc id, ← List.append_assoc t, mentionedIn_append_feed hid.ne_nil,
            hmention front hfront, Bool.true_or]

end IssueId

end GitHooks
