/-
**A map written in INI form is read again.**

Sections by name, each with options by name, can be written in many ways: the sections in any order
and the options of each in any order, truth values in any case, the further lines of a text behind
any blanks and tabulators, blank lines and comments anywhere, and each line ended in one of two
ways.  Reading undoes all of these.

The choices are taken one after the other.  First come the lines that mean something.  They put the
sections in one by one, so that nothing is left of the order.  Then the lines that mean nothing are
put among them, and do nothing where they stand, not even between two lines of one text.  Last the
lines become a text, and what is left of an ending in a line is trimmed.

Main definitions:

* `Text.EndedLines` — lines as a text;
* `Ini.OptionLines`, `Ini.SectionLines`, `Ini.MapLines` — the lines of an option, of several
  options, and of several sections;
* `Ini.Padded` — lines with blank lines and comments among them;
* `Ini.WrittenAs`, `Ini.IsWritableMap` — the texts that sections are written as, and the sections
  that can be written.

Main results:

* `Ini.OptionLines.reads`, `Ini.SectionLines.reads`, `Ini.MapLines.reads` — what reading the lines
  comes to;
* `Ini.Reads.of_padded`, `Ini.Reads.of_endedLines` — what stands among the lines does not matter,
  and neither does what ends them;
* `Ini.parse_of_writtenAs` — what is written is read again.
-/

import GitHooks.Proofs.Buffer.PhysicalLines
import GitHooks.Proofs.Config.Gathered
import GitHooks.Proofs.Text.Core
import GitHooks.Proofs.Text.Decimal
import GitHooks.Proofs.Text.Join

set_option relaxedAutoImplicit false
set_option autoImplicit false

namespace GitHooks

/-! ### Lines as a text -/

namespace Text

/-- Lines as a text.  A line is ended by a line feed, which a carriage return may precede; the last
line need not be ended. -/
inductive EndedLines : List Text → Text → Prop where
  | nil : EndedLines [] []
  | last (line : Text) : EndedLines [line] line
  | feed (line : Text) {lines : List Text} {t : Text} (hrest : EndedLines lines t) :
      EndedLines (line :: lines) (line ++ '\n' :: t)
  | pair (line : Text) {lines : List Text} {t : Text} (hrest : EndedLines lines t) :
      EndedLines (line :: lines) (line ++ '\r' :: '\n' :: t)

theorem not_mem_of_mem_splitOn_feed {t u : Text} (h : u ∈ splitOn ['\n'] t) : '\n' ∉ u := by
  intro hmem
  obtain ⟨front, back, rfl⟩ := List.append_of_mem hmem
  exact not_infix_of_mem_splitOn (by decide) h ⟨front, back, by simp⟩

end Text

namespace Config

namespace Ini

open Text

variable {state next after : State} {name key : Text} {raws : List Text} {value : Value}
  {table : Table} {lastKey : Option Text} {outside : Text → Option Table} {sections : Entries Table}

/-! ### How a map is written -/

/-- Blanks and tabulators, at least one. -/
structure IsIndent (indent : Text) : Prop where
  ne_nil : indent ≠ []
  blank : ∀ c ∈ indent, c = ' ' ∨ c = '\t'

instance (indent : Text) : Decidable (IsIndent indent) :=
  decidable_of_iff (indent ≠ [] ∧ indent.all (fun c => c = ' ' ∨ c = '\t') = true) <| by
    simp only [List.all_eq_true, decide_eq_true_eq]
    exact ⟨fun ⟨hne, hblank⟩ => ⟨hne, hblank⟩, fun ⟨hne, hblank⟩ => ⟨hne, hblank⟩⟩

/-- The lines of an option.  A truth value is written as its word, in any case; the further lines of
a text are indented. -/
inductive OptionLines (key : Text) : Value → List Text → Prop where
  | boolean {b : Bool} {word : Text} (hword : word.map Char.toLower = wordOf b) :
      OptionLines key (.boolean b) [key ++ " = " ++ word]
  | text {t first : Text} {further raws : List Text} (hlines : splitOn "\n" t = first :: further)
      (hindented : List.Forall₂ (fun line raw => ∃ indent, IsIndent indent ∧ raw = indent ++ line)
        further raws) :
      OptionLines key (.text t) ((key ++ " = " ++ first) :: raws)

/-- The lines of several options. -/
inductive SectionLines : List (Text × Value) → List Text → Prop where
  | nil : SectionLines [] []
  | cons {key : Text} {value : Value} {options : List (Text × Value)} {own raws : List Text}
      (hown : OptionLines key value own) (hrest : SectionLines options raws) :
      SectionLines ((key, value) :: options) (own ++ raws)

/-- The lines of several sections, each below its header, with its options in any order. -/
inductive MapLines : List (Text × Table) → List Text → Prop where
  | nil : MapLines [] []
  | cons {name : Text} {table : Table} {options : List (Text × Value)}
      {rest : List (Text × Table)} {body raws : List Text} (horder : options.Perm table)
      (hbody : SectionLines options body) (hrest : MapLines rest raws) :
      MapLines ((name, table) :: rest) (("[" ++ name ++ "]") :: (body ++ raws))

/-- Lines with blank lines and comments among them. -/
inductive Padded : List Text → List Text → Prop where
  | nil : Padded [] []
  | line (raw : Text) {lines padded : List Text} (hrest : Padded lines padded) :
      Padded (raw :: lines) (raw :: padded)
  | ignored {raw : Text} {lines padded : List Text} (hraw : isIgnored (trim raw) = true)
      (hfeed : '\n' ∉ raw) (hrest : Padded lines padded) : Padded lines (raw :: padded)

/-- A text that sections are written as: in any order, with blank lines and comments anywhere. -/
def WrittenAs (sections : Entries Table) (content : Text) : Prop :=
  ∃ written lines padded, written.Perm sections ∧ MapLines written lines ∧ Padded lines padded
    ∧ EndedLines padded content

/-- Sections that can be written: their names are trimmed, the names of their options are read from
the line of an option, neither have a line feed in them, and their values can be written. -/
structure IsWritableMap (sections : Entries Table) : Prop where
  sorted : Entries.Sorted sections
  names : ∀ named ∈ sections, trim named.1 = named.1 ∧ '\n' ∉ named.1
  tables : ∀ named ∈ sections, Entries.Sorted named.2
  keys : ∀ named ∈ sections, ∀ option ∈ named.2, IsOptionName option.1 ∧ '\n' ∉ option.1
  values : ∀ named ∈ sections, ∀ option ∈ named.2, IsWritable option.2

/-! ### Reading options -/

/-- No word for a truth value has white space in it, in whatever case it is written. -/
theorem isSpace_of_mem_word {b : Bool} {word : Text} (hword : word.map Char.toLower = wordOf b)
    {c : Char} (hc : c ∈ word) : isSpace c = false := by
  rw [Bool.eq_false_iff]
  intro hspace
  have hmem : c ∈ wordOf b := by
    rw [← hword, ← toLower_of_isSpace hspace]
    exact List.mem_map_of_mem hc
  have hnone : (wordOf b).all (fun d => !isSpace d) = true := by cases b <;> decide
  have hc := List.all_eq_true.1 hnone c hmem
  rw [hspace] at hc
  cases hc

theorem valueOf_word {b : Bool} {word : Text} (hword : word.map Char.toLower = wordOf b) :
    valueOf (trim word) = .boolean b := by
  have hsolid : ∀ c ∈ word, isSpace c = false := fun c hc => isSpace_of_mem_word hword hc
  have htrim : word = trim word := isCore_iff_trim.1
    ⟨⟨[], [], by simp, rfl, rfl⟩, fun c hc => hsolid c (List.mem_of_head? hc),
      fun c hc => hsolid c (List.mem_of_getLast? hc)⟩
  rw [← htrim, valueOf, hword]
  cases b <;> rfl

theorem IsIndent.isBlank {indent : Text} (h : IsIndent indent) : isBlank indent = true := by
  refine List.all_eq_true.2 fun c hc => ?_
  rcases h.blank c hc with rfl | rfl <;> decide

theorem IsIndent.isIndented_append {indent : Text} (h : IsIndent indent) (line : Text) :
    isIndented (indent ++ line) = true := by
  obtain ⟨hne, hblank⟩ := h
  cases indent with
  | nil => exact absurd rfl hne
  | cons c indent =>
      rcases hblank c List.mem_cons_self with rfl | rfl <;> rfl

theorem trim_of_mem_splitOn {t line : Text} (ht : IsWritableText t)
    (hline : line ∈ splitOn "\n" t) : trim line = line := by
  rcases ht with rfl | ⟨first, further, hlines, hok, -⟩
  · obtain rfl : line = [] := List.mem_singleton.1 hline
    rfl
  · rw [hlines] at hline
    exact (hok line hline).2

/-- **Reading the lines of an option** puts it into the section at hand. -/
theorem OptionLines.reads (hlines : OptionLines key value raws) (hkey : IsOptionName key)
    (hvalue : IsWritable value) (h : Within outside name table lastKey state) :
    ∃ after, Reads state raws after
      ∧ Within outside name (Entries.insert key value table) (some key) after := by
  cases hlines with
  | @boolean b word hword =>
      have hreads := h.reads_option hkey word
      rw [valueOf_word hword] at hreads
      exact ⟨_, hreads, h.put key (.boolean b)⟩
  | @text t first further raws hpieces hindented =>
      have htrimmed : ∀ line ∈ further, trim line = line := fun line hline =>
        trim_of_mem_splitOn hvalue (hpieces ▸ List.mem_cons_of_mem _ hline)
      have hwritten : Written key (.text t) ((key ++ " = " ++ first) :: raws) := by
        refine .text hpieces ((List.forall₂_and_left _ _).2 ⟨htrimmed, hindented⟩ |>.imp ?_)
        rintro line raw ⟨hline, indent, hindent, rfl⟩
        exact ⟨hindent.isIndented_append line, by rw [trim_append_left hindent.isBlank, hline]⟩
      exact hwritten.reads hkey hvalue h

/-- **Reading the lines of several options** puts them into the section at hand. -/
theorem SectionLines.reads {options : List (Text × Value)} (hlines : SectionLines options raws)
    (hoptions : ∀ option ∈ options, IsOptionName option.1 ∧ IsWritable option.2)
    (h : Within outside name table lastKey state) : ∃ after lastKey', Reads state raws after
      ∧ Within outside name (Entries.insertAll table options) lastKey' after := by
  induction hlines generalizing table lastKey state with
  | nil => exact ⟨state, lastKey, Reads.nil state, h⟩
  | cons hown _ ih =>
      obtain ⟨hoption, hrest⟩ := List.forall_mem_cons.1 hoptions
      obtain ⟨next, hreads, hnext⟩ := hown.reads hoption.1 hoption.2 h
      obtain ⟨after, lastKey', hreads', hafter⟩ := ih hrest hnext
      exact ⟨after, lastKey', hreads.append hreads', hafter⟩

/-! ### Reading sections -/

/-- What is known while a section is read that was not there before tells all sections. -/
theorem Within.sections_eq (hstate : state.Ordered)
    (h : Within (Entries.get? · state.sections) name table lastKey next) :
    next.sections = Entries.insert name table state.sections := by
  refine Entries.eq_of_get?_eq h.ordered.sections (Entries.sorted_insert hstate.sections _ _)
    fun other => ?_
  rw [Entries.get?_insert hstate.sections]
  split
  · next heq => exact heq ▸ h.inside
  · next hne => exact h.outside other (Ne.symm hne)

/-- **Reading the lines of several sections** puts them in, one after the other. -/
theorem MapLines.reads {written : List (Text × Table)} (hlines : MapLines written raws)
    (hnames : ∀ named ∈ written, trim named.1 = named.1)
    (htables : ∀ named ∈ written, Entries.Sorted named.2)
    (hoptions : ∀ named ∈ written, ∀ option ∈ named.2, IsOptionName option.1 ∧ IsWritable option.2)
    (hdistinct : (written.map Prod.fst).Nodup) (hstate : state.Ordered)
    (hnew : ∀ named ∈ written, Entries.get? named.1 state.sections = none) :
    ∃ after, Reads state raws after
      ∧ after.sections = Entries.insertAll state.sections written := by
  induction hlines generalizing state with
  | nil => exact ⟨state, Reads.nil state, rfl⟩
  | @cons name table options rest body raws horder hbody _ ih =>
      obtain ⟨hname, hnames⟩ := List.forall_mem_cons.1 hnames
      obtain ⟨htable, htables⟩ := List.forall_mem_cons.1 htables
      obtain ⟨hoption, hoptions⟩ := List.forall_mem_cons.1 hoptions
      obtain ⟨hfresh, hdistinct⟩ := List.nodup_cons.1 hdistinct
      obtain ⟨hnone, hnew⟩ := List.forall_mem_cons.1 hnew
      have hheader : ∀ n, step state ("[" ++ name ++ "]", n) = .ok (state.opened name) :=
        step_section (not_isIndented_of_isSpace (by decide) _) (sectionName?_header hname)
      have hopened := Within.opened hstate name
      rw [show Entries.get? name state.sections = none from hnone, Option.getD_none] at hopened
      obtain ⟨next, lastKey, hreads, hnext⟩ := hbody.reads
        (fun option hmem => hoption option (horder.mem_iff.1 hmem)) hopened
      rw [Entries.insertAll_perm htable horder] at hnext
      have hsections := hnext.sections_eq hstate
      obtain ⟨after, hrest, hafter⟩ := ih hnames htables hoptions hdistinct hnext.ordered
        fun named hmem => by
          have hne : name ≠ named.1 := fun heq => hfresh (List.mem_map.2 ⟨named, hmem, heq.symm⟩)
          rw [hsections, Entries.get?_insert hstate.sections, if_neg hne, hnew named hmem]
      exact ⟨after, Reads.cons hheader (hreads.append hrest), by rw [hafter, hsections]; rfl⟩

/-! ### Lines that mean nothing -/

/-- **Blank lines and comments do nothing** where they stand. -/
theorem Reads.of_padded {lines padded : List Text} (hpadded : Padded lines padded)
    (h : Reads state lines after) : Reads state padded after := by
  induction hpadded generalizing state with
  | nil => exact h
  | line raw _ ih =>
      obtain ⟨next, hstep, hrest⟩ := h.uncons
      exact Reads.cons hstep (ih hrest)
  | ignored hraw _ _ ih => exact Reads.cons (step_ignored hraw) (ih h)

/-! ### Endings -/

theorem isIndented_dropReturn (raw : Text) : isIndented (dropReturn raw) = isIndented raw := by
  refine apply_dropReturn (fun u => ?_) raw
  cases u <;> rfl

/-- A carriage return at the end of a line does not change what the line does. -/
theorem step_dropReturn (state : State) (raw : Text) (n : Nat) :
    step state (dropReturn raw, n) = step state (raw, n) := by
  rw [step, step, isIndented_dropReturn, trim_dropReturn]

/-- **Lines are read the same however they are ended.** -/
theorem Reads.of_endedLines {content : Text} (hended : EndedLines raws content)
    (hfeed : ∀ raw ∈ raws, '\n' ∉ raw) (h : Reads state raws after) :
    Reads state (lines content) after := by
  induction hended generalizing state with
  | nil => exact h
  | last line =>
      by_cases hline : line = []
      · -- nothing is left of an empty line that is not ended
        subst hline
        obtain ⟨next, hstep, hrest⟩ := h.uncons
        obtain rfl := Except.ok.inj ((hstep 0).symm.trans (step_ignored rfl 0))
        exact hrest
      · rwa [lines_of_not_mem (hfeed line (List.mem_singleton_self _)) hline]
  | feed line _ ih =>
      obtain ⟨hline, hfeed⟩ := List.forall_mem_cons.1 hfeed
      obtain ⟨next, hstep, hrest⟩ := h.uncons
      rw [lines_append_feed hline]
      exact Reads.cons (fun n => (step_dropReturn state line n).trans (hstep n)) (ih hfeed hrest)
  | pair line _ ih =>
      obtain ⟨hline, hfeed⟩ := List.forall_mem_cons.1 hfeed
      obtain ⟨next, hstep, hrest⟩ := h.uncons
      rw [lines_pair hline]
      exact Reads.cons hstep (ih hfeed hrest)

/-! ### No line feed within a line -/

theorem IsIndent.not_mem_feed {indent : Text} (h : IsIndent indent) : '\n' ∉ indent := by
  intro hmem
  rcases h.blank _ hmem with heq | heq <;> revert heq <;> decide

theorem OptionLines.not_mem_feed (hlines : OptionLines key value raws) (hkey : '\n' ∉ key) :
    ∀ raw ∈ raws, '\n' ∉ raw := by
  have hequals : '\n' ∉ key ++ " = " := by
    rw [List.mem_append, not_or]
    exact ⟨hkey, by decide⟩
  cases hlines with
  | boolean hword =>
      refine List.forall_mem_singleton.2 ?_
      rw [List.mem_append, not_or]
      refine ⟨hequals, fun hmem => ?_⟩
      have hsolid := isSpace_of_mem_word hword hmem
      revert hsolid
      decide
  | @text t first further raws hpieces hindented =>
      have hpiece : ∀ line ∈ first :: further, '\n' ∉ line := fun line hline =>
        not_mem_of_mem_splitOn_feed (hpieces ▸ hline)
      obtain ⟨hfirst, hfurther⟩ := List.forall_mem_cons.1 hpiece
      have hraws : List.Forall₂ (fun raw _ => '\n' ∉ raw ∧ True) raws further := by
        refine .flip (((List.forall₂_and_left _ _).2 ⟨hfurther, hindented⟩).imp ?_)
        rintro line raw ⟨hline, indent, hindent, rfl⟩
        rw [flip, List.mem_append, not_or]
        exact ⟨⟨hindent.not_mem_feed, hline⟩, trivial⟩
      refine List.forall_mem_cons.2 ⟨?_, ((List.forall₂_and_left _ _).1 hraws).1⟩
      rw [List.mem_append, not_or]
      exact ⟨hequals, hfirst⟩

theorem SectionLines.not_mem_feed {options : List (Text × Value)}
    (hlines : SectionLines options raws) (hkeys : ∀ option ∈ options, '\n' ∉ option.1) :
    ∀ raw ∈ raws, '\n' ∉ raw := by
  induction hlines with
  | nil => simp
  | cons hown _ ih =>
      obtain ⟨hkey, hkeys⟩ := List.forall_mem_cons.1 hkeys
      exact List.forall_mem_append.2 ⟨hown.not_mem_feed hkey, ih hkeys⟩

theorem MapLines.not_mem_feed {written : List (Text × Table)} (hlines : MapLines written raws)
    (hnames : ∀ named ∈ written, '\n' ∉ named.1)
    (hkeys : ∀ named ∈ written, ∀ option ∈ named.2, '\n' ∉ option.1) :
    ∀ raw ∈ raws, '\n' ∉ raw := by
  induction hlines with
  | nil => simp
  | cons horder hbody _ ih =>
      obtain ⟨hname, hnames⟩ := List.forall_mem_cons.1 hnames
      obtain ⟨hkey, hkeys⟩ := List.forall_mem_cons.1 hkeys
      refine List.forall_mem_cons.2 ⟨?_, List.forall_mem_append.2 ⟨?_, ih hnames hkeys⟩⟩
      · rw [List.mem_append, List.mem_append, not_or, not_or]
        exact ⟨⟨by decide, hname⟩, by decide⟩
      · exact hbody.not_mem_feed fun option hmem => hkey option (horder.mem_iff.1 hmem)

theorem Padded.not_mem_feed {lines padded : List Text} (hpadded : Padded lines padded)
    (hlines : ∀ raw ∈ lines, '\n' ∉ raw) : ∀ raw ∈ padded, '\n' ∉ raw := by
  induction hpadded with
  | nil => simp
  | line raw _ ih =>
      obtain ⟨hraw, hlines⟩ := List.forall_mem_cons.1 hlines
      exact List.forall_mem_cons.2 ⟨hraw, ih hlines⟩
  | ignored _ hfeed _ ih => exact List.forall_mem_cons.2 ⟨hfeed, ih hlines⟩

/-! ### What is written is read -/

/-- **What is written is read again**: a file gives exactly the sections it was written for. -/
theorem parse_of_writtenAs {content : Text} (hmap : IsWritableMap sections)
    (h : WrittenAs sections content) : Ini.parse content = .ok (asValues sections) := by
  obtain ⟨written, lines, padded, hperm, hlines, hpadded, hended⟩ := h
  have hmem : ∀ named ∈ written, named ∈ sections := fun named hnamed => hperm.mem_iff.1 hnamed
  have hdistinct : (written.map Prod.fst).Nodup :=
    (hperm.map Prod.fst).nodup_iff.2 (Entries.nodup_keys hmap.sorted)
  -- the lines that mean something put in all sections
  obtain ⟨after, hreads, hafter⟩ := hlines.reads
    (fun named hnamed => (hmap.names named (hmem named hnamed)).1)
    (fun named hnamed => hmap.tables named (hmem named hnamed))
    (fun named hnamed option hoption => ⟨(hmap.keys named (hmem named hnamed) option hoption).1,
      hmap.values named (hmem named hnamed) option hoption⟩)
    hdistinct State.ordered_initial (fun _ _ => rfl)
  -- no line of the file has a line feed in it
  have hfeed := hpadded.not_mem_feed (hlines.not_mem_feed
    (fun named hnamed => (hmap.names named (hmem named hnamed)).2)
    fun named hnamed option hoption => (hmap.keys named (hmem named hnamed) option hoption).2)
  have hcontent := ((hreads.of_padded hpadded).of_endedLines hended hfeed).sections_eq
  rw [hafter, Entries.insertAll_perm hmap.sorted hperm] at hcontent
  rw [Ini.parse, hcontent]
  rfl

/-- Two sections, with an option that has a header in its name and a text that has one in its second
line. -/
def mixed : Entries Table :=
  [("hooks", [("a [b]", .text "x\n[y] = #1"), ("strict", .boolean true)]),
    ("tool.x", [("name", .text [])])]

/-- The same as a file: the last section comes first, and a comment stands within a text. -/
def mixedFile : Text :=
  "# settings\n[tool.x]\r\nname = \n\n[hooks]\nstrict = TRUE\na [b] = x\r\n\t; why\n  \t[y] = #1"

theorem isWritableMap_mixed : IsWritableMap mixed where
  sorted := by rw [Entries.Sorted]; decide
  names := by decide
  tables := by simp only [Entries.Sorted]; decide
  keys := by decide
  values := by
    have htext : IsWritableText "x\n[y] = #1" :=
      .inr ⟨"x", ["[y] = #1".toList], rfl, by decide, by decide, by decide, by decide⟩
    have hhooks : ∀ option ∈ ([("a [b]", .text "x\n[y] = #1"), ("strict", .boolean true)] : Table),
        IsWritable option.2 :=
      List.forall_mem_cons.2 ⟨htext, List.forall_mem_singleton.2 trivial⟩
    have htool : ∀ option ∈ ([("name", .text [])] : Table), IsWritable option.2 :=
      List.forall_mem_singleton.2 (Or.inl rfl)
    exact List.forall_mem_cons.2 ⟨hhooks, List.forall_mem_singleton.2 htool⟩

theorem writtenAs_mixedFile : WrittenAs mixed mixedFile := by
  have hpieces : splitOn "\n" ("x\n[y] = #1" : Text) = ("x" : Text) :: ["[y] = #1".toList] := rfl
  have hword : ("TRUE" : Text).map Char.toLower = wordOf true := rfl
  have htext : OptionLines "a [b]" (.text "x\n[y] = #1") ["a [b] = x", "  \t[y] = #1"] :=
    .text hpieces (.cons ⟨"  \t", by decide, rfl⟩ .nil)
  have hhooks : SectionLines [("strict", .boolean true), ("a [b]", .text "x\n[y] = #1")]
      ["strict = TRUE", "a [b] = x", "  \t[y] = #1"] :=
    .cons (.boolean hword) (.cons htext .nil)
  have htool : SectionLines [("name", .text [])] ["name = "] := .cons (.text rfl .nil) .nil
  have hlines : MapLines mixed.reverse
      ["[tool.x]", "name = ", "[hooks]", "strict = TRUE", "a [b] = x", "  \t[y] = #1"] :=
    .cons (.refl _) htool (.cons (.swap _ _ _) hhooks .nil)
  have hpadded : Padded
      ["[tool.x]", "name = ", "[hooks]", "strict = TRUE", "a [b] = x", "  \t[y] = #1"]
      ["# settings", "[tool.x]", "name = ", "", "[hooks]", "strict = TRUE", "a [b] = x", "\t; why",
        "  \t[y] = #1"] :=
    .ignored (by decide) (by decide) <| .line _ <| .line _ <| .ignored (by decide) (by decide) <|
      .line _ <| .line _ <| .line _ <| .ignored (by decide) (by decide) <| .line _ .nil
  have hended : EndedLines ["# settings", "[tool.x]", "name = ", "", "[hooks]", "strict = TRUE",
      "a [b] = x", "\t; why", "  \t[y] = #1"] mixedFile :=
    .feed _ <| .pair _ <| .feed _ <| .feed _ <| .feed _ <| .feed _ <| .pair _ <| .feed _ <| .last _
  exact ⟨mixed.reverse, _, _, List.reverse_perm _, hlines, hpadded, hended⟩

/-- The sections come in another order, and the comment does not end the text. -/
theorem parse_of_writtenAs_mixed : IsWritableMap mixed ∧ WrittenAs mixed mixedFile
    ∧ Ini.parse mixedFile = .ok (asValues mixed) :=
  ⟨isWritableMap_mixed, writtenAs_mixedFile,
    parse_of_writtenAs isWritableMap_mixed writtenAs_mixedFile⟩

end Ini

end Config

end GitHooks
