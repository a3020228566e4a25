/-
**What the lines of a file in INI form do.**

A line does one of four things: it means nothing, it begins a section, it puts an option into the
section at hand, or it goes on with the option above it.  The last three change one section and
leave the others alone.  So what is known while a section is read is the options of that section,
the option that may be continued, and what the other sections held before: this is `Ini.Within`,
and every line that belongs to a section keeps it.

Main definitions:

* `Ini.Reads` — the lines that take one state to another, wherever in a file they stand;
* `Ini.State.opened`, `Ini.State.put` — a state with a section begun, and with an option put in;
* `Ini.Within` — what is known while a section is read.

Main results:

* `Ini.Reads.append`, `Ini.Reads.uncons` — several lines are read one after the other;
* `Ini.step_ignored`, `Ini.step_section`, `Ini.step_option`, `Ini.step_continued` — the four kinds
  of lines;
* `Ini.Within.opened`, `Ini.Within.put` — what is known after a section has begun, and after an
  option has been put in.
-/

import GitHooks.Config.Ini
import GitHooks.Proofs.Entries
import GitHooks.Proofs.Text.Affix

set_option relaxedAutoImplicit false
set_option autoImplicit false

namespace GitHooks

namespace Config

namespace Ini

open Text

variable {state next after : State} {raw name key : Text} {raws others : List Text}
  {value : Value} {table : Table} {lastKey : Option Text} {outside : Text → Option Table}

/-! ### Several lines -/

/-- Lines that take one state to another, wherever in a file they stand. -/
def Reads (state : State) (raws : List Text) (after : State) : Prop :=
  ∀ n, (raws.zipIdx n).foldlM step state = .ok after

theorem Reads.nil (state : State) : Reads state [] state := fun _ => rfl

theorem Reads.cons (h : ∀ n, step state (raw, n) = .ok next) (hrest : Reads next raws after) :
    Reads state (raw :: raws) after := by
  intro n
  rw [List.zipIdx_cons, List.foldlM_cons, h n]
  exact hrest (n + 1)

theorem Reads.append (h : Reads state raws next) (hrest : Reads next others after) :
    Reads state (raws ++ others) after := by
  intro n
  rw [List.zipIdx_append, List.foldlM_append, h n]
  exact hrest _

/-- Where a line stands is told of a fault only. -/
theorem start_number {line : Text} {n : Nat} (h : start state n line = .ok next) (m : Nat) :
    start state m line = .ok next := by
  rw [start] at h ⊢
  cases hline : classify line with
  | blank => simpa only [hline] using h
  | «section» name => simpa only [hline] using h
  | option key value => cases hcurrent : state.current <;> simp_all
  | other => cases hcurrent : state.current <;> simp_all

/-- A line that is read is read the same anywhere in a file. -/
theorem step_number {n : Nat} (h : step state (raw, n) = .ok next) (m : Nat) :
    step state (raw, m) = .ok next := by
  rw [step] at h ⊢
  by_cases hignored : isIgnored (trim raw) = true
  · rwa [if_pos hignored] at h ⊢
  · rw [if_neg hignored] at h ⊢
    cases hcontinue : if isIndented raw then continue? state (trim raw) else none with
    | some longer =>
        rw [hcontinue] at h
        exact h
    | none =>
        rw [hcontinue] at h
        exact start_number h _

/-- Lines that are read once are read the same anywhere in a file. -/
theorem Reads.of_foldlM {n : Nat} (h : (raws.zipIdx n).foldlM step state = .ok after) :
    Reads state raws after := by
  induction raws generalizing state n with
  | nil =>
      obtain rfl := Except.ok.inj h
      exact Reads.nil state
  | cons raw raws ih =>
      rw [List.zipIdx_cons, List.foldlM_cons] at h
      cases hstep : step state (raw, n) with
      | error fault =>
          rw [hstep] at h
          cases h
      | ok next =>
          rw [hstep] at h
          exact Reads.cons (step_number hstep) (ih h)

/-- Several lines are read by reading the first and then the others. -/
theorem Reads.uncons (h : Reads state (raw :: raws) after) :
    ∃ next, (∀ n, step state (raw, n) = .ok next) ∧ Reads next raws after := by
  have hfirst := h 0
  rw [List.zipIdx_cons, List.foldlM_cons] at hfirst
  cases hstep : step state (raw, 0) with
  | error fault =>
      rw [hstep] at hfirst
      cases hfirst
  | ok next =>
      rw [hstep] at hfirst
      exact ⟨next, step_number hstep, Reads.of_foldlM hfirst⟩

theorem Reads.sections_eq {content : Text} (h : Reads ⟨[], none, none⟩ (lines content) after) :
    sections content = .ok after.sections := by
  rw [sections, h 0]
  rfl

/-! ### Single lines -/

/-- A state in which a section has begun. -/
def State.opened (state : State) (name : Text) : State :=
  ⟨Entries.alter name (fun table => some (table.getD [])) state.sections, some name, none⟩

/-- A state in which an option has been put into a section. -/
def State.put (state : State) (name key : Text) (value : Value) : State :=
  ⟨Entries.alter name (Option.map (Entries.insert key value)) state.sections, some name, some key⟩

theorem isIgnored_cons_iff (c : Char) (t : Text) :
    isIgnored (c :: t) = true ↔ c = '#' ∨ c = ';' := by
  simp only [isIgnored, List.isEmpty_cons, Bool.false_or, Bool.or_eq_true, startsWith_iff]
  change ['#'] <+: c :: t ∨ [';'] <+: c :: t ↔ _
  simp only [List.cons_prefix_cons, List.nil_prefix, and_true, eq_comm]

/-- A line that begins a section does mean something. -/
theorem isIgnored_of_sectionName? {line : Text} (h : sectionName? line = some name) :
    isIgnored line = false := by
  simp only [sectionName?, Option.map_eq_some_iff, Option.bind_eq_some_iff] at h
  obtain ⟨_, ⟨inner, hinner, -⟩, -⟩ := h
  obtain rfl : line = '[' :: inner := dropLeading?_eq_some_iff.1 hinner
  rw [Bool.eq_false_iff, ne_eq, isIgnored_cons_iff]
  decide

/-- A line with an option does mean something. -/
theorem isIgnored_of_classify_option {line : Text} (h : classify line = .option key value) :
    isIgnored line = false := by
  rw [Bool.eq_false_iff]
  intro hignored
  rw [classify, if_pos hignored] at h
  cases h

theorem step_ignored (h : isIgnored (trim raw) = true) (n : Nat) :
    step state (raw, n) = .ok state := by
  rw [step, if_pos h]

theorem step_section (hraw : isIndented raw = false) (h : sectionName? (trim raw) = some name)
    (n : Nat) : step state (raw, n) = .ok (state.opened name) := by
  have hline : isIgnored (trim raw) = false := isIgnored_of_sectionName? h
  simp [step, hline, hraw, start, classify, h, State.opened]

theorem step_option (hraw : isIndented raw = false ∨ continue? state (trim raw) = none)
    (h : classify (trim raw) = .option key value) (hcurrent : state.current = some name) (n : Nat) :
    step state (raw, n) = .ok (state.put name key value) := by
  have hline : isIgnored (trim raw) = false := isIgnored_of_classify_option h
  have hcontinue : (if isIndented raw then continue? state (trim raw) else none) = none := by
    rcases hraw with hraw | hnone
    · rw [hraw, if_neg Bool.false_ne_true]
    · rw [hnone, ite_self]
  simp [step, hline, hcontinue, start, h, hcurrent, State.put]

/-! ### The section at hand -/

/-- The sections are in order, and so are the options of each of them. -/
structure State.Ordered (state : State) : Prop where
  sections : Entries.Sorted state.sections
  tables : ∀ name table, Entries.get? name state.sections = some table → Entries.Sorted table

theorem State.ordered_initial : State.Ordered ⟨[], none, none⟩ :=
  ⟨Entries.sorted_nil, fun _ _ h => (nomatch h)⟩

/-- What is known while the section `name` is read: its options so far, the option that may be
continued, and the sections outside it. -/
structure Within (outside : Text → Option Table) (name : Text) (table : Table)
    (lastKey : Option Text) (state : State) : Prop where
  ordered : state.Ordered
  current : state.current = some name
  lastKey : state.lastKey = lastKey
  inside : Entries.get? name state.sections = some table
  outside : ∀ other, other ≠ name → Entries.get? other state.sections = outside other

theorem Within.sorted (h : Within outside name table lastKey state) : Entries.Sorted table :=
  h.ordered.tables name table h.inside

/-- Changing one section keeps the order, if the options it is given are in order. -/
theorem State.Ordered.alter (h : state.Ordered) {change : Option Table → Option Table}
    (hchange : ∀ table, change (Entries.get? name state.sections) = some table →
      Entries.Sorted table) (current lastKey : Option Text) :
    State.Ordered ⟨Entries.alter name change state.sections, current, lastKey⟩ := by
  refine ⟨Entries.sorted_alter h.sections name change, fun other table hget => ?_⟩
  rw [Entries.get?_alter h.sections] at hget
  split at hget
  · exact hchange table hget
  · exact h.tables other table hget

/-- After a section has begun, its options are those it had if it was begun before. -/
theorem Within.opened (h : state.Ordered) (name : Text) :
    Within (Entries.get? · state.sections) name ((Entries.get? name state.sections).getD []) none
      (state.opened name) where
  ordered := by
    refine h.alter (fun table htable => ?_) _ _
    cases hget : Entries.get? name state.sections with
    | none =>
        rw [hget] at htable
        cases htable
        exact Entries.sorted_nil
    | some old =>
        rw [hget] at htable
        cases htable
        exact h.tables name old hget
  current := rfl
  lastKey := rfl
  inside := by rw [State.opened, Entries.get?_alter h.sections, if_pos rfl]
  outside := fun other hother => by
    rw [State.opened, Entries.get?_alter h.sections, if_neg (Ne.symm hother)]

/-- After an option has been put in, the section has it, and that option may be continued. -/
theorem Within.put (h : Within outside name table lastKey state) (key : Text) (value : Value) :
    Within outside name (Entries.insert key value table) (some key)
      (state.put name key value) where
  ordered := by
    refine h.ordered.alter (fun longer hlonger => ?_) _ _
    rw [h.inside] at hlonger
    cases hlonger
    exact Entries.sorted_insert h.sorted key value
  current := rfl
  lastKey := rfl
  inside := by rw [State.put, Entries.get?_alter h.ordered.sections, if_pos rfl, h.inside]; rfl
  outside := fun other hother => by
    rw [State.put, Entries.get?_alter h.ordered.sections, if_neg (Ne.symm hother),
      h.outside other hother]

/-! ### Lines that go on with an option -/

/-- Whether the option above can be continued: it has to be a text. -/
def continues (table : Table) (lastKey : Option Text) : Bool :=
  ((lastKey.bind fun key => Entries.get? key table).bind Value.text?).isSome

@[simp] theorem continues_none (table : Table) : continues table none = false := rfl

theorem continues_insert (h : Entries.Sorted table) (key : Text) (value : Value) :
    continues (Entries.insert key value table) (some key) = value.text?.isSome := by
  rw [continues, Option.bind_some, Entries.get?_insert h, if_pos rfl]
  rfl

theorem continues_iff :
    continues table lastKey = true
      ↔ ∃ key t, lastKey = some key ∧ Entries.get? key table = some (.text t) := by
  constructor
  · intro h
    obtain ⟨t, ht⟩ := Option.isSome_iff_exists.1 h
    obtain ⟨value, hvalue, ht⟩ := Option.bind_eq_some_iff.1 ht
    obtain ⟨key, rfl, hget⟩ := Option.bind_eq_some_iff.1 hvalue
    cases value <;> simp [Value.text?] at ht
    exact ⟨key, _, rfl, hget⟩
  · rintro ⟨key, t, rfl, hget⟩
    simp [continues, hget]

/-- Nothing is continued where the option above is not a text. -/
theorem Within.continue?_eq_none (h : Within outside name table lastKey state)
    (hnot : continues table lastKey = false) (line : Text) : continue? state line = none := by
  rw [continue?, h.current, h.lastKey]
  cases lastKey with
  | none => rfl
  | some key =>
      simp only [continued, h.inside, Option.bind_some]
      cases hget : Entries.get? key table with
      | none => rfl
      | some value =>
          rw [continues, Option.bind_some, hget, Option.bind_some, Option.isSome_eq_false_iff,
            Option.isNone_iff_eq_none] at hnot
          simp [hnot]

/-- The text of an option with one more line. -/
def appendLine (t line : Text) : Text := if t.isEmpty then line else t ++ "\n" ++ line

/-- An indented line goes on with the text of the option above it. -/
theorem step_continued {t : Text} (h : Within outside name table (some key) state)
    (hraw : isIndented raw = true) (hline : isIgnored (trim raw) = false)
    (hget : Entries.get? key table = some (.text t)) (n : Nat) :
    step state (raw, n) = .ok (state.put name key (.text (appendLine t (trim raw)))) := by
  have hcontinue : continue? state (trim raw)
      = some (state.put name key (.text (appendLine t (trim raw)))) := by
    obtain ⟨sections, current, lastKey'⟩ := state
    obtain rfl : current = some name := h.current
    obtain rfl : lastKey' = some key := h.lastKey
    have hinside : Entries.get? name sections = some table := h.inside
    simp [continue?, continued, hinside, hget, State.put, appendLine]
  rw [step]
  simp [hline, hraw, hcontinue]

end Ini

end Config

end GitHooks
