/-
**Positions that are asked for.**

Where a text is cut at a position that is counted in bytes of UTF-8, the position may be behind the
end of the text or in the middle of a character; where a line is asked for by its index, there may
be no such line; and a difference of positions may not exist.  Each of these questions is put here
so that it has an answer only where it makes sense.  A text can be cut at a position exactly if it
is made of two texts the first of which has as many bytes.

Main definitions:

* `Misstep` — why a question about a position has no answer;
* `Text.dropBytes`, `Text.takeBytes`, `Text.sliceBytes` — a text cut at positions in bytes;
* `itemAt`, `itemsFrom`, `difference` — the same for the lines of a file and for positions alone.

Main results:

* `Text.dropBytes_eq_ok_iff`, `Text.takeBytes_eq_ok_iff`, `Text.sliceBytes_eq_ok_iff` — where a text
  can be cut;
* `Span.inBytes_shift` — the positions of a piece of a text, counted from the beginning of the text.
-/

import GitHooks.Notice.Basic

set_option relaxedAutoImplicit false
set_option autoImplicit false

namespace GitHooks

/-! ### Questions without an answer -/

/-- Why a question about a position has no answer. -/
inductive Misstep where
  /-- The position is behind the end, or a span ends before it begins. -/
  | outside
  /-- The position is between two bytes of one character. -/
  | inside
  /-- The position is not behind the one before it. -/
  | stuck
deriving DecidableEq, Repr

/-- How far `n` is behind `m`. -/
def difference (n m : Nat) : Except Misstep Nat :=
  if m ≤ n then Except.ok (n - m) else Except.error Misstep.outside

/-- The item of a list with an index. -/
def itemAt {α : Type} (index : Nat) (items : List α) : Except Misstep α :=
  match items[index]? with
  | some item => Except.ok item
  | none => Except.error Misstep.outside

/-- The items of a list from an index on. -/
def itemsFrom {α : Type} (index : Nat) (items : List α) : Except Misstep (List α) :=
  if index ≤ items.length then Except.ok (items.drop index) else Except.error Misstep.outside

namespace Text

/-- A text without its first bytes. -/
def dropBytes : Nat → Text → Except Misstep Text
  | 0, t => Except.ok t
  | _ + 1, [] => Except.error Misstep.outside
  | n + 1, c :: t =>
    if c.utf8Size ≤ n + 1 then dropBytes (n + 1 - c.utf8Size) t else Except.error Misstep.inside

/-- The first bytes of a text. -/
def takeBytes : Nat → Text → Except Misstep Text
  | 0, _ => Except.ok []
  | _ + 1, [] => Except.error Misstep.outside
  | n + 1, c :: t =>
    if c.utf8Size ≤ n + 1 then (takeBytes (n + 1 - c.utf8Size) t).map (c :: ·)
    else Except.error Misstep.inside

/-- The bytes of a text at the positions of a span. -/
def sliceBytes (span : Span) (t : Text) : Except Misstep Text :=
  if span.start ≤ span.stop then
    (dropBytes span.start t).bind (takeBytes (span.stop - span.start))
  else Except.error Misstep.outside

end Text

variable {α : Type} {n m : Nat} {items : List α} {item : α} {t u front back : Text} {span : Span}

theorem difference_add (n m : Nat) : difference (n + m) n = Except.ok m := by
  rw [difference, if_pos (Nat.le_add_right n m), Nat.add_sub_cancel_left]

theorem itemAt_of_getElem? (h : items[n]? = some item) : itemAt n items = Except.ok item := by
  rw [itemAt, h]

theorem itemsFrom_of_le (h : n ≤ items.length) :
    itemsFrom n items = Except.ok (items.drop n) := if_pos h

/-- The first of the items that are left is the one with the index. -/
theorem getElem?_of_drop_eq_cons {rest : List α} (h : items.drop n = item :: rest) :
    items[n]? = some item ∧ items.drop (n + 1) = rest := by
  refine ⟨?_, ?_⟩
  · rw [← List.head?_drop, h, List.head?_cons]
  · rw [← List.drop_drop, h, List.drop_succ_cons, List.drop_zero]

/-! ### Cutting a text -/

namespace Text

theorem dropBytes_zero (t : Text) : dropBytes 0 t = Except.ok t := by
  cases t <;> rfl

theorem takeBytes_zero (t : Text) : takeBytes 0 t = Except.ok [] := by
  cases t <;> rfl

theorem byteLength_pos (h : t ≠ []) : 0 < byteLength t := by
  obtain ⟨c, u, rfl⟩ := List.exists_cons_of_ne_nil h
  rw [byteLength_cons]
  exact Nat.add_pos_left c.utf8Size_pos _

theorem byteLength_reverse (t : Text) : byteLength t.reverse = byteLength t := by
  induction t with
  | nil => rfl
  | cons c t ih =>
      rw [List.reverse_cons, byteLength_append, ih, byteLength_cons, byteLength_cons,
        byteLength_nil, Nat.add_zero, Nat.add_comm]

/-- Behind a character, a text is cut as its rest is. -/
theorem dropBytes_cons (c : Char) (n : Nat) (t : Text) :
    dropBytes (c.utf8Size + n) (c :: t) = dropBytes n t := by
  obtain ⟨k, hk⟩ := Nat.exists_eq_add_of_lt c.utf8Size_pos
  have hsum : c.utf8Size + n = (k + n) + 1 := by omega
  rw [hsum, dropBytes, if_pos (by omega)]
  congr 1
  omega

theorem takeBytes_cons (c : Char) (n : Nat) (t : Text) :
    takeBytes (c.utf8Size + n) (c :: t) = (takeBytes n t).map (c :: ·) := by
  obtain ⟨k, hk⟩ := Nat.exists_eq_add_of_lt c.utf8Size_pos
  have hsum : c.utf8Size + n = (k + n) + 1 := by omega
  rw [hsum, takeBytes, if_pos (by omega)]
  congr 2
  omega

/-- Behind the bytes of a first part comes the second. -/
theorem dropBytes_append (front back : Text) :
    dropBytes (byteLength front) (front ++ back) = Except.ok back := by
  induction front with
  | nil => exact dropBytes_zero back
  | cons c front ih => rw [byteLength_cons, List.cons_append, dropBytes_cons, ih]

/-- The bytes of a first part are the first part. -/
theorem takeBytes_append (front back : Text) :
    takeBytes (byteLength front) (front ++ back) = Except.ok front := by
  induction front with
  | nil => exact takeBytes_zero back
  | cons c front ih =>
      rw [byteLength_cons, List.cons_append, takeBytes_cons, ih]
      rfl

theorem exists_of_dropBytes (h : dropBytes n t = Except.ok u) :
    ∃ front, t = front ++ u ∧ byteLength front = n := by
  induction t generalizing n with
  | nil =>
      cases n with
      | zero => exact ⟨[], Except.ok.inj h, rfl⟩
      | succ n => exact nomatch h
  | cons c t ih =>
      cases n with
      | zero => exact ⟨[], Except.ok.inj h, rfl⟩
      | succ n =>
          rw [dropBytes] at h
          split at h
          · next hle =>
            obtain ⟨front, rfl, hfront⟩ := ih h
            refine ⟨c :: front, rfl, ?_⟩
            rw [byteLength_cons, hfront]
            omega
          · exact nomatch h

theorem exists_of_takeBytes (h : takeBytes n t = Except.ok u) :
    ∃ back, t = u ++ back ∧ byteLength u = n := by
  induction t generalizing n u with
  | nil =>
      cases n with
      | zero =>
          obtain rfl := Except.ok.inj h
          exact ⟨[], rfl, rfl⟩
      | succ n => exact nomatch h
  | cons c t ih =>
      cases n with
      | zero =>
          obtain rfl := Except.ok.inj h
          exact ⟨c :: t, rfl, rfl⟩
      | succ n =>
          rw [takeBytes] at h
          split at h
          · next hle =>
            cases htake : takeBytes (n + 1 - c.utf8Size) t with
            | error misstep =>
                rw [htake] at h
                exact nomatch h
            | ok v =>
                rw [htake] at h
                obtain rfl := Except.ok.inj h
                obtain ⟨back, rfl, hv⟩ := ih htake
                refine ⟨back, rfl, ?_⟩
                rw [byteLength_cons, hv]
                omega
          · exact nomatch h

/-- **A text has a second part at a position** exactly if as many bytes are in front of it. -/
theorem dropBytes_eq_ok_iff :
    dropBytes n t = Except.ok u ↔ ∃ front, t = front ++ u ∧ byteLength front = n := by
  constructor
  · exact exists_of_dropBytes
  · rintro ⟨front, rfl, rfl⟩
    exact dropBytes_append front u

/-- **A text has a first part up to a position** exactly if that part has as many bytes. -/
theorem takeBytes_eq_ok_iff :
    takeBytes n t = Except.ok u ↔ ∃ back, t = u ++ back ∧ byteLength u = n := by
  constructor
  · exact exists_of_takeBytes
  · rintro ⟨back, rfl, rfl⟩
    exact takeBytes_append u back

/-- **A text has a piece at a span** exactly if the bytes of what stands in front of it and the
bytes of the piece make the span. -/
theorem sliceBytes_eq_ok_iff :
    sliceBytes span t = Except.ok u ↔ ∃ front back, t = front ++ u ++ back
      ∧ span = ⟨byteLength front, byteLength front + byteLength u⟩ := by
  constructor
  · intro h
    rw [sliceBytes] at h
    split at h
    · next hle =>
      cases hdrop : dropBytes span.start t with
      | error misstep =>
          rw [hdrop] at h
          exact nomatch h
      | ok behind =>
          rw [hdrop] at h
          obtain ⟨front, rfl, hfront⟩ := dropBytes_eq_ok_iff.1 hdrop
          obtain ⟨back, rfl, hu⟩ := takeBytes_eq_ok_iff.1 h
          refine ⟨front, back, (List.append_assoc _ _ _).symm, ?_⟩
          rw [hu, hfront, Nat.add_sub_cancel' hle]
    · exact nomatch h
  · rintro ⟨front, back, rfl, rfl⟩
    rw [sliceBytes, if_pos (Nat.le_add_right _ _), List.append_assoc, dropBytes_append,
      Nat.add_sub_cancel_left]
    exact takeBytes_append u back

theorem sliceBytes_append (front u back : Text) :
    sliceBytes ⟨byteLength front, byteLength (front ++ u)⟩ (front ++ u ++ back) = Except.ok u :=
  sliceBytes_eq_ok_iff.2 ⟨front, back, rfl, by rw [byteLength_append]⟩

end Text

/-! ### Characters and bytes -/

open Text

/-- The positions of a piece of a line, counted in bytes. -/
theorem Span.inBytes_append (front u back : Text) :
    (⟨front.length, front.length + u.length⟩ : Span).inBytes (front ++ u ++ back)
      = ⟨byteLength front, byteLength (front ++ u)⟩ := by
  rw [Span.inBytes, ← List.length_append, List.take_left, List.append_assoc, List.take_left]

/-- Positions in a piece of a line are further on in the line, by what stands in front of the
piece. -/
theorem Span.inBytes_shift (hstart : span.start ≤ t.length) (hstop : span.stop ≤ t.length)
    (front back : Text) :
    (span.shift front.length).inBytes (front ++ t ++ back)
      = (span.inBytes t).shift (byteLength front) := by
  have htake : ∀ n ≤ t.length, byteLength ((front ++ t ++ back).take (front.length + n))
      = byteLength front + byteLength (t.take n) := by
    intro n hn
    rw [List.append_assoc, List.take_length_add_append, List.take_append_of_le_length hn,
      byteLength_append]
  rw [Span.inBytes, Span.inBytes, Span.shift, Span.shift, htake _ hstart, htake _ hstop]

end GitHooks
