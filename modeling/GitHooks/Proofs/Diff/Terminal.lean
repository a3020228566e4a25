/-
**What a terminal shows of a coloured text.**

A terminal reads a text from left to right.  A control sequence changes the colour that is on and
shows nothing; every other character is shown in that colour.  A control sequence begins with an
escape character and has no other, so one that has begun is not carried on by the next one, nor by
a line break: texts that are put together there are read one after the other.

A part that is painted may turn colours off itself.  The colour is turned on again behind every such
place, and so all that the part shows is in its colour, to the end, and nothing behind it is.

Main definitions:

* `Diff.Signal`, `Diff.signals` — a text as a terminal reads it;
* `Diff.shown` — the characters that are shown, with their colours;
* `Diff.visible` — the same without the colours.

Main results:

* `Diff.signals_append` — texts that are read one after the other;
* `Diff.shownIn_append_of_not_mem` — a text without control sequences is shown as it is;
* `Diff.shownIn_plain` — a part that is not painted is shown in no colour;
* `Diff.shownIn_paint` — **a part that is painted is shown in its colour**.
-/

import GitHooks.Diff
import GitHooks.Proofs.Text.Affix

set_option relaxedAutoImplicit false
set_option autoImplicit false

namespace GitHooks

namespace Diff

open Text

/-! ### Reading -/

/-- What a text tells a terminal. -/
inductive Signal where
  /-- To show a character. -/
  | glyph (c : Char)
  /-- To turn a colour on, or colours off. -/
  | colour (colour? : Option Colour)
deriving DecidableEq, Repr

/-- The control sequence that turns a colour on, or colours off. -/
def control : Option Colour → Text
  | some colour => colour.start
  | none => reset

/-- What a control sequence holds behind the escape character. -/
def code : Option Colour → Text
  | some Colour.red => "[31m"
  | some Colour.green => "[32m"
  | none => "[0m"

/-- What the control sequence that a text begins with turns on or off. -/
def controlAt? (t : Text) : Option (Option Colour) :=
  [none, some Colour.red, some Colour.green].find? fun colour? => startsWith t (control colour?)

/-- A text as a terminal reads it, where so many characters of a control sequence are still to be
passed over. -/
def signalsFrom : Nat → Text → List Signal
  | _, [] => []
  | passing + 1, _ :: t => signalsFrom passing t
  | 0, c :: t =>
    match controlAt? (c :: t) with
    | some colour? => Signal.colour colour? :: signalsFrom (code colour?).length t
    | none => Signal.glyph c :: signalsFrom 0 t

/-- A text as a terminal reads it. -/
def signals (t : Text) : List Signal := signalsFrom 0 t

/-- The characters that are shown, with their colours, where a colour may be on. -/
def shownIn : Option Colour → List Signal → List (Char × Option Colour)
  | _, [] => []
  | colour?, Signal.glyph c :: rest => (c, colour?) :: shownIn colour? rest
  | _, Signal.colour colour? :: rest => shownIn colour? rest

/-- What a terminal shows of a text. -/
def shown (t : Text) : List (Char × Option Colour) := shownIn none (signals t)

/-- The character that a signal shows. -/
def Signal.glyph? : Signal → Option Char
  | Signal.glyph c => some c
  | Signal.colour _ => none

/-- The characters of a text that a terminal shows. -/
def visible (t : Text) : Text := (signals t).filterMap Signal.glyph?

/-- A text that is shown in one colour, or in none. -/
def inColour (colour? : Option Colour) (t : Text) : List (Char × Option Colour) :=
  t.map fun c => (c, colour?)

variable {t u : Text} {colour? : Option Colour} {colour : Colour} {c : Char} {passing : Nat}

/-! ### Control sequences -/

theorem control_eq (colour? : Option Colour) : control colour? = '\x1b' :: code colour? := by
  rcases colour? with _ | _ | _ <;> rfl

theorem escape_not_mem_code (colour? : Option Colour) : '\x1b' ∉ code colour? := by
  rcases colour? with _ | _ | _ <;> decide

theorem newline_not_mem_code (colour? : Option Colour) : '\n' ∉ code colour? := by
  rcases colour? with _ | _ | _ <;> decide

/-- A text does not begin with two control sequences. -/
theorem controlAt?_eq_some_iff : controlAt? t = some colour? ↔ control colour? <+: t := by
  constructor
  · intro h
    have hstart := List.find?_some h
    exact startsWith_iff.1 hstart
  · rintro ⟨rest, rfl⟩
    rcases colour? with _ | _ | _ <;> rfl

theorem controlAt?_eq_none_iff : controlAt? t = none ↔ ∀ colour?, ¬ control colour? <+: t := by
  rw [Option.eq_none_iff_forall_ne_some]
  exact forall_congr' fun colour? => not_congr controlAt?_eq_some_iff

theorem controlAt?_of_ne (hc : c ≠ '\x1b') : controlAt? (c :: t) = none := by
  rw [controlAt?_eq_none_iff]
  intro colour? h
  rw [control_eq, List.cons_prefix_cons] at h
  exact hc h.1.symm

/-! ### One text behind another -/

/-- A text that does not carry on a control sequence in front of it. -/
def Separate (t : Text) : Prop := ∀ c, t.head? = some c → ∀ colour?, c ∉ code colour?

theorem separate_nil : Separate [] := fun _ h => nomatch h

theorem separate_newline (t : Text) : Separate ('\n' :: t) := by
  intro c hc colour?
  obtain rfl := Option.some.inj hc
  exact newline_not_mem_code colour?

theorem separate_control (colour? : Option Colour) (t : Text) :
    Separate (control colour? ++ t) := by
  intro c hc other
  rw [control_eq] at hc
  obtain rfl := Option.some.inj hc
  exact escape_not_mem_code other

theorem code_prefix_append_iff (hu : Separate u) :
    code colour? <+: t ++ u ↔ code colour? <+: t := by
  cases u with
  | nil => rw [List.append_nil]
  | cons c u => exact prefix_append_cons_iff (hu c rfl colour?)

theorem controlAt?_append (hu : Separate u) (c : Char) (t : Text) :
    controlAt? (c :: (t ++ u)) = controlAt? (c :: t) := by
  refine Option.ext fun colour? => ?_
  rw [controlAt?_eq_some_iff, controlAt?_eq_some_iff, control_eq, List.cons_prefix_cons,
    List.cons_prefix_cons, code_prefix_append_iff hu]

/-- A control sequence that a text begins with is within the text. -/
theorem length_code_le (h : controlAt? (c :: t) = some colour?) :
    (code colour?).length ≤ t.length := by
  rw [controlAt?_eq_some_iff, control_eq, List.cons_prefix_cons] at h
  exact h.2.length_le

theorem signalsFrom_append (hu : Separate u) (hpassing : passing ≤ t.length) :
    signalsFrom passing (t ++ u) = signalsFrom passing t ++ signals u := by
  induction t generalizing passing with
  | nil =>
      obtain rfl := Nat.le_zero.1 hpassing
      rfl
  | cons c t ih =>
      cases passing with
      | succ passing => exact ih (Nat.le_of_succ_le_succ hpassing)
      | zero =>
          rw [List.cons_append, signalsFrom, signalsFrom, controlAt?_append hu]
          cases hc : controlAt? (c :: t) with
          | none => exact congrArg _ (ih (Nat.zero_le _))
          | some colour? => exact congrArg _ (ih (length_code_le hc))

/-- **Texts are read one after the other** where a control sequence is not carried on. -/
theorem signals_append (hu : Separate u) (t : Text) : signals (t ++ u) = signals t ++ signals u :=
  signalsFrom_append hu (Nat.zero_le _)

theorem signalsFrom_length (t u : Text) : signalsFrom t.length (t ++ u) = signals u := by
  induction t with
  | nil => rfl
  | cons c t ih => exact ih

/-- A control sequence is one signal. -/
theorem signals_control (colour? : Option Colour) (t : Text) :
    signals (control colour? ++ t) = Signal.colour colour? :: signals t := by
  have hc : controlAt? (control colour? ++ t) = some colour? :=
    controlAt?_eq_some_iff.2 (List.prefix_append _ _)
  rw [control_eq, List.cons_append] at hc ⊢
  rw [signals, signalsFrom, hc]
  exact congrArg _ (signalsFrom_length _ _)

/-- A text without an escape character is shown as it is, whatever stands behind it. -/
theorem shownIn_append_of_not_mem (ht : '\x1b' ∉ t) (u : Text) :
    shownIn colour? (signals (t ++ u)) = inColour colour? t ++ shownIn colour? (signals u) := by
  induction t with
  | nil => rfl
  | cons c t ih =>
      rw [List.mem_cons, not_or] at ht
      rw [List.cons_append, signals, signalsFrom, controlAt?_of_ne (Ne.symm ht.1)]
      exact congrArg _ (ih ht.2)

/-! ### Parts that turn no colour on -/

/-- A text turns no colour on by itself. -/
def Colourless (t : Text) : Prop := ∀ colour : Colour, ¬ colour.start <:+: t

theorem Colourless.of_infix (h : Colourless t) (hu : u <:+: t) : Colourless u :=
  fun colour hcolour => h colour (hcolour.trans hu)

/-- No signal of such a text turns a colour on. -/
theorem not_mem_signalsFrom (h : Colourless t) :
    Signal.colour (some colour) ∉ signalsFrom passing t := by
  induction t generalizing passing with
  | nil => simp [signalsFrom]
  | cons c t ih =>
      have ih : ∀ {passing}, Signal.colour (some colour) ∉ signalsFrom passing t :=
        ih (h.of_infix (List.suffix_cons c t).isInfix)
      cases passing with
      | succ passing => exact ih
      | zero =>
          rw [signalsFrom]
          cases hc : controlAt? (c :: t) with
          | none => simpa using ih
          | some colour? =>
              have hbegins := controlAt?_eq_some_iff.1 hc
              have hne : some colour ≠ colour? := by
                rintro rfl
                exact h colour hbegins.isInfix
              simpa [hne] using ih

/-- What is read where a part is in a colour: every reset is followed by the colour. -/
def repaint : Option Colour → Signal → List Signal
  | some colour, Signal.colour none => [Signal.colour none, Signal.colour (some colour)]
  | _, signal => [signal]

/-- Signals that turn no colour on are shown in the one that is on. -/
theorem shownIn_repaint (colour? : Option Colour) {read : List Signal}
    (hread : ∀ colour, Signal.colour (some colour) ∉ read) (rest : List Signal) :
    shownIn colour? (read.flatMap (repaint colour?) ++ rest)
      = inColour colour? (read.filterMap Signal.glyph?) ++ shownIn colour? rest := by
  induction read with
  | nil => rfl
  | cons signal read ih =>
      have ih := ih fun colour hmem => hread colour (List.mem_cons_of_mem _ hmem)
      rcases signal with c | _ | colour
      · cases colour? <;> exact congrArg _ ih
      · cases colour? <;> exact ih
      · exact absurd List.mem_cons_self (hread colour)

/-- **A part that is not painted is shown in no colour.** -/
theorem shownIn_plain (ht : Colourless t) (hu : Separate u) :
    shownIn none (signals (t ++ u))
      = inColour none (visible t) ++ shownIn none (signals u) := by
  have hread : ∀ colour, Signal.colour (some colour) ∉ signals t := fun _ => not_mem_signalsFrom ht
  have hsame : (signals t).flatMap (repaint none) = signals t := List.flatMap_singleton' _
  have hshown := shownIn_repaint none hread (signals u)
  rwa [hsame, ← signals_append hu] at hshown

theorem shown_plain (ht : Colourless t) : shown t = inColour none (visible t) := by
  have hnothing : shownIn none (signals []) = [] := rfl
  have hshown := shownIn_plain ht separate_nil
  rwa [List.append_nil, hnothing, List.append_nil] at hshown

/-! ### Parts that are painted -/

theorem paint_append (colour : Colour) (t u : Text) :
    paint colour t ++ u = control (some colour)
      ++ (replaceAll reset (reset ++ colour.start) t ++ (control none ++ u)) := by
  simp only [paint, control, List.append_assoc]

theorem separate_paint (colour : Colour) (t u : Text) : Separate (paint colour t ++ u) := by
  rw [paint_append]
  exact separate_control _ _

/-- A code that is found in a part with its resets replaced has been there before. -/
theorem prefix_of_prefix_replaceFrom {piece substitute : Text} (hpiece : '\x1b' ∉ piece)
    (hu : ∀ c, u.head? = some c → c ∉ piece)
    (h : piece <+: replaceFrom reset (reset ++ substitute) 0 t ++ u) : piece <+: t := by
  induction piece generalizing t with
  | nil => exact List.nil_prefix
  | cons d piece ih =>
      rw [List.mem_cons, not_or] at hpiece
      cases t with
      | nil =>
          -- the piece would begin in the text behind
          obtain ⟨rest, rfl⟩ := h
          exact absurd List.mem_cons_self (hu d rfl)
      | cons c t =>
          rw [replaceFrom] at h
          split at h
          · -- a reset begins with the escape character
            have hd : d = '\x1b' := (List.cons_prefix_cons.1 h).1
            exact absurd hd.symm hpiece.1
          · obtain ⟨rfl, hrest⟩ := List.cons_prefix_cons.1 h
            have hu' : ∀ c, u.head? = some c → c ∉ piece :=
              fun c hc hmem => hu c hc (List.mem_cons_of_mem _ hmem)
            exact List.cons_prefix_cons.2 ⟨rfl, ih hpiece.2 hu' hrest⟩

/-- Where no control sequence begins, none does when the resets behind are replaced. -/
theorem controlAt?_replaceFrom {substitute : Text} (hu : Separate u)
    (hc : controlAt? (c :: t) = none) :
    controlAt? (c :: (replaceFrom reset (reset ++ substitute) 0 t ++ u)) = none := by
  rw [controlAt?_eq_none_iff] at hc ⊢
  intro colour? h
  rw [control_eq, List.cons_prefix_cons] at h
  refine hc colour? ?_
  rw [control_eq, List.cons_prefix_cons]
  exact ⟨h.1, prefix_of_prefix_replaceFrom (escape_not_mem_code colour?)
    (fun d hd => hu d hd colour?) h.2⟩

/-- Where resets are followed by a colour, all else is read as before. -/
theorem signals_replaceFrom (hu : Separate u)
    (ht : ∀ other, Signal.colour (some other) ∉ signalsFrom passing t) :
    signals (replaceFrom reset (reset ++ colour.start) passing t ++ u)
      = (signalsFrom passing t).flatMap (repaint (some colour)) ++ signals u := by
  induction t generalizing passing with
  | nil => rfl
  | cons c t ih =>
      cases passing with
      | succ passing => exact ih ht
      | zero =>
          rw [signalsFrom] at ht ⊢
          rw [replaceFrom]
          cases hc : controlAt? (c :: t) with
          | none =>
              rw [hc] at ht
              have hread := ih fun other hmem => ht other (List.mem_cons_of_mem _ hmem)
              have hreset : ¬ reset.isPrefixOf (c :: t) = true := fun h =>
                controlAt?_eq_none_iff.1 hc none (List.isPrefixOf_iff_prefix.1 h)
              rw [if_neg hreset, List.cons_append, signals, signalsFrom,
                controlAt?_replaceFrom hu hc]
              exact congrArg _ hread
          | some colour? =>
              rw [hc] at ht
              cases colour? with
              | some other => exact absurd List.mem_cons_self (ht other)
              | none =>
                  have hread := ih fun other hmem => ht other (List.mem_cons_of_mem _ hmem)
                  have hreset : reset.isPrefixOf (c :: t) = true :=
                    List.isPrefixOf_iff_prefix.2 (controlAt?_eq_some_iff.1 hc)
                  -- the colour that follows the reset is a signal of its own
                  rw [if_pos hreset, List.append_assoc, List.append_assoc]
                  refine (signals_control none _).trans (congrArg _ ?_)
                  exact (signals_control (some colour) _).trans (congrArg _ hread)

/-- **A part that is painted is shown in its colour**, and what stands behind it is not. -/
theorem shownIn_paint (ht : Colourless t) (colour : Colour) (u : Text) :
    shownIn none (signals (paint colour t ++ u))
      = inColour (some colour) (visible t) ++ shownIn none (signals u) := by
  have hread : ∀ other, Signal.colour (some other) ∉ signalsFrom 0 t :=
    fun other => not_mem_signalsFrom ht
  rw [paint_append, signals_control, replaceAll,
    signals_replaceFrom (separate_control none u) hread, signals_control]
  exact shownIn_repaint (some colour) hread _

end Diff

end GitHooks
