/-
**Sections written in INI form, and read again.**

An option is written as a line with an equals sign; the further lines of its text follow, indented.
A document is a row of sections, those that are meant to be found and others that only have to be
well formed.  Reading an option puts its value into the section at hand, whatever option stands
above it; so reading a section puts in all of its options, and reading a document leaves every
section that is meant to be found with the options it was written with.

Main definitions:

* `Ini.IsKey`, `Ini.IsWritableText`, `Ini.IsWritable` — the names, texts and values of options that
  can be written;
* `Ini.IsOptionName` — all names that are read from the line of an option;
* `Ini.Written`, `Ini.WrittenOptions` — the lines of an option, and those of several;
* `Ini.Body` — the lines below the header of a section that is well formed;
* `Ini.IsSectionOf` — the names of the sections of a tool;
* `Ini.Document` — the lines of a document in which a tool has certain sections.

Main results:

* `Ini.classify_option` — what the first line of an option is read as;
* `Ini.Written.reads`, `Ini.WrittenOptions.reads`, `Ini.Body.reads`, `Ini.Document.reads` — what
  reading an option, several options, a foreign section and a document comes to.
-/

import GitHooks.Proofs.Config.Lines
import GitHooks.Proofs.Text.Contents
import Mathlib.Data.List.Forall2

set_option relaxedAutoImplicit false
set_option autoImplicit false

namespace GitHooks

namespace Config

namespace Ini

open Text

variable {state : State} {raw name key tool : Text} {raws : List Text} {value : Value}
  {table : Table} {lastKey : Option Text} {outside : Text → Option Table}

/-! ### What can be written -/

/-- Names of options that can stand before an equals sign. -/
def IsKey (key : Text) : Prop :=
  key ≠ [] ∧ trim key = key ∧ key.all (fun c => c ∉ ['=', ':', '[', '#', ';']) = true

instance (key : Text) : Decidable (IsKey key) := inferInstanceAs (Decidable (_ ∧ _ ∧ _))

/-- Names that are read from the line of an option: they have none of the characters that stand
before a value, and do not begin like a comment or the header of a section. -/
structure IsOptionName (key : Text) : Prop where
  ne_nil : key ≠ []
  trimmed : trim key = key
  no_separator : '=' ∉ key ∧ ':' ∉ key
  begins : ∀ c ∈ key.head?, c ∉ ['#', ';', '[']

theorem isOptionName_iff : IsOptionName key ↔ key ≠ [] ∧ trim key = key ∧ ('=' ∉ key ∧ ':' ∉ key)
    ∧ key.head?.all (fun c => c ∉ ['#', ';', '[']) = true := by
  simp only [Option.all_eq_true, decide_eq_true_eq]
  exact ⟨fun ⟨hne, htrim, hnone, hbegins⟩ => ⟨hne, htrim, hnone, hbegins⟩,
    fun ⟨hne, htrim, hnone, hbegins⟩ => ⟨hne, htrim, hnone, hbegins⟩⟩

instance (key : Text) : Decidable (IsOptionName key) := decidable_of_iff _ isOptionName_iff.symm

/-- Texts that can stand behind an equals sign: empty, or lines without white space at their ends,
none of them empty, of which the first does not read as a truth value and no other as a comment. -/
def IsWritableText (t : Text) : Prop :=
  t = [] ∨ ∃ first further, splitOn "\n" t = first :: further
    ∧ (∀ line ∈ first :: further, line ≠ [] ∧ trim line = line)
    ∧ first.map Char.toLower ≠ ("true" : Text) ∧ first.map Char.toLower ≠ ("false" : Text)
    ∧ ∀ line ∈ further, startsWith line "#" = false ∧ startsWith line ";" = false

/-- Values that can stand behind an equals sign. -/
def IsWritable : Value → Prop
  | .text t => IsWritableText t
  | .boolean _ => True
  | _ => False

/-! ### How it is written -/

/-- The word for a truth value. -/
def wordOf (b : Bool) : Text := if b then "true" else "false"

/-- The lines of an option: the further lines of its text are indented. -/
inductive Written (key : Text) : Value → List Text → Prop where
  | boolean (b : Bool) : Written key (.boolean b) [key ++ " = " ++ wordOf b]
  | text {t first : Text} {further raws : List Text} (hlines : splitOn "\n" t = first :: further)
      (hindented : List.Forall₂ (fun line raw => isIndented raw = true ∧ trim raw = line)
        further raws) :
      Written key (.text t) ((key ++ " = " ++ first) :: raws)

/-- The lines of several options, with blank lines and comments among them. -/
inductive WrittenOptions : List (Text × Value) → List Text → Prop where
  | nil : WrittenOptions [] []
  | ignored {options : List (Text × Value)} {raw : Text} {raws : List Text}
      (hraw : isIgnored (trim raw) = true) (hrest : WrittenOptions options raws) :
      WrittenOptions options (raw :: raws)
  | option {key : Text} {value : Value} {options : List (Text × Value)} {own raws : List Text}
      (hown : Written key value own) (hrest : WrittenOptions options raws) :
      WrittenOptions ((key, value) :: options) (own ++ raws)

/-- The lines below the header of a section, where `canContinue` tells whether the option above is
one that an indented line goes on with. -/
inductive Body : Bool → List Text → Prop where
  | nil (canContinue : Bool) : Body canContinue []
  | ignored {canContinue : Bool} {raw : Text} {raws : List Text}
      (hraw : isIgnored (trim raw) = true) (hrest : Body canContinue raws) :
      Body canContinue (raw :: raws)
  | option {canContinue : Bool} {raw key : Text} {value : Value} {raws : List Text}
      (hraw : isIndented raw = false ∨ canContinue = false)
      (hline : classify (trim raw) = .option key value) (hrest : Body value.text?.isSome raws) :
      Body canContinue (raw :: raws)
  | continued {raw : Text} {raws : List Text} (hraw : isIndented raw = true)
      (hline : isIgnored (trim raw) = false) (hrest : Body true raws) : Body true (raw :: raws)

/-- The name of the section of a tool. -/
def sectionOf (tool : Text) : Text := "tool." ++ tool

/-- The names of the section of a tool and of the sections below it. -/
def IsSectionOf (tool name : Text) : Prop :=
  name = sectionOf tool ∨ (sectionOf tool ++ "." : Text) <+: name

instance (tool name : Text) : Decidable (IsSectionOf tool name) :=
  inferInstanceAs (Decidable (_ ∨ _))

/-- The lines of a document in which a tool has the sections `own`, in this order, with any other
sections that are well formed before, among and behind them. -/
inductive Document (tool : Text) : List (Text × Table) → List Text → Prop where
  | nil : Document tool [] []
  | ignored {own : List (Text × Table)} {raw : Text} {raws : List Text}
      (hraw : isIgnored (trim raw) = true) (hrest : Document tool own raws) :
      Document tool own (raw :: raws)
  | own {name : Text} {table : Table} {options : List (Text × Value)}
      {own : List (Text × Table)} {body raws : List Text} (hoptions : options.Perm table)
      (hbody : WrittenOptions options body) (hrest : Document tool own raws) :
      Document tool ((name, table) :: own) (("[" ++ name ++ "]") :: (body ++ raws))
  | other {own : List (Text × Table)} {raw name : Text} {body raws : List Text}
      (hraw : isIndented raw = false) (hname : sectionName? (trim raw) = some name)
      (hother : ¬ IsSectionOf tool name) (hbody : Body false body)
      (hrest : Document tool own raws) : Document tool own (raw :: (body ++ raws))

/-! ### Lines with an equals sign -/

theorem IsKey.isOptionName (hkey : IsKey key) : IsOptionName key := by
  obtain ⟨hne, htrim, hchars⟩ := hkey
  have hplain : ∀ c ∈ key, c ∉ ['=', ':', '[', '#', ';'] := fun c hc =>
    of_decide_eq_true (List.all_eq_true.1 hchars c hc)
  refine ⟨hne, htrim, ⟨fun h => ?_, fun h => ?_⟩, fun c hc hmem => ?_⟩
  · exact hplain _ h (by decide)
  · exact hplain _ h (by decide)
  · refine hplain c (List.mem_of_head? hc) ?_
    have hsubset : ['#', ';', '['] ⊆ ['=', ':', '[', '#', ';'] := by decide
    exact hsubset hmem

theorem IsOptionName.exists_cons (hkey : IsOptionName key) :
    ∃ c rest, key = c :: rest ∧ isSpace c = false ∧ c ∉ ['#', ';', '['] := by
  obtain ⟨⟨c, rest, rfl, hc⟩, -⟩ := ends_of_trim_eq hkey.trimmed hkey.ne_nil
  exact ⟨c, rest, rfl, hc, hkey.begins c rfl⟩

theorem not_isIndented_of_isSpace {c : Char} (hc : isSpace c = false) (t : Text) :
    isIndented (c :: t) = false := by
  have hblank : c ≠ ' ' := by rintro rfl; revert hc; decide
  have htab : c ≠ '\t' := by rintro rfl; revert hc; decide
  simp only [isIndented, Bool.or_eq_false_iff, startsWith_eq_false_iff]
  change ¬ [' '] <+: c :: t ∧ ¬ ['\t'] <+: c :: t
  simp [List.cons_prefix_cons, hblank.symm, htab.symm]

theorem sectionName?_cons_of_ne {c : Char} (hc : c ≠ '[') (t : Text) :
    sectionName? (c :: t) = none := by
  have hnone : dropLeading? "[" (c :: t) = none := by
    rw [dropLeading?_eq_none_iff]
    change ¬ ['['] <+: c :: t
    simp [List.cons_prefix_cons, hc.symm]
  rw [sectionName?, hnone]
  rfl

/-- What is trimmed of a line with an equals sign stands behind the value. -/
theorem IsOptionName.trim_line (hkey : IsOptionName key) (t : Text) :
    trim (key ++ " = " ++ t) = (key ++ [' ']) ++ '=' :: trimEnd (' ' :: t) := by
  have hshape : key ++ " = " ++ t = (key ++ [' ']) ++ '=' :: (' ' :: t) := by
    rw [List.append_assoc, List.append_assoc]
    rfl
  have hstart : trimStart (key ++ [' ']) = key ++ [' '] := by
    obtain ⟨c, rest, rfl, hc, -⟩ := hkey.exists_cons
    exact trimStart_cons hc _
  rw [hshape, trim_append_cons (by decide), hstart]

/-- A line with an equals sign is cut in front of its value. -/
theorem IsOptionName.cut_line (hkey : IsOptionName key) (t : Text) :
    cutWhere? (fun c => c == '=' || c == ':') (trim (key ++ " = " ++ t))
      = some (key ++ [' '], trimEnd (' ' :: t)) := by
  rw [hkey.trim_line]
  refine cutWhere?_append_cons (fun d hd => ?_) rfl _
  rcases List.mem_append.1 hd with hd | hd
  · have hequals : d ≠ '=' := fun heq => hkey.no_separator.1 (heq ▸ hd)
    have hcolon : d ≠ ':' := fun heq => hkey.no_separator.2 (heq ▸ hd)
    simp [hequals, hcolon]
  · obtain rfl := List.mem_singleton.1 hd
    rfl

/-- A line with an equals sign is neither a comment nor the header of a section. -/
theorem IsOptionName.line_begins (hkey : IsOptionName key) (t : Text) :
    isIgnored (trim (key ++ " = " ++ t)) = false
      ∧ sectionName? (trim (key ++ " = " ++ t)) = none := by
  obtain ⟨c, rest, hcons, -, hfirst⟩ := hkey.exists_cons
  simp only [List.mem_cons, List.not_mem_nil, not_or, or_false] at hfirst
  obtain ⟨hhash, hsemicolon, hbracket⟩ := hfirst
  rw [hkey.trim_line, hcons, List.cons_append, List.cons_append]
  refine ⟨?_, sectionName?_cons_of_ne hbracket _⟩
  rw [Bool.eq_false_iff, ne_eq, isIgnored_cons_iff, not_or]
  exact ⟨hhash, hsemicolon⟩

/-- A name with an equals sign behind it is an option. -/
theorem classify_option (hkey : IsOptionName key) (t : Text) :
    classify (trim (key ++ " = " ++ t)) = .option key (valueOf (trim t)) := by
  obtain ⟨hnot, hsection⟩ := hkey.line_begins t
  have hname : trim (key ++ [' ']) = key := by rw [trim_append_right (by decide), hkey.trimmed]
  have hvalue : trim (trimEnd (' ' :: t)) = trim t := by
    rw [trim_trimEnd]
    exact trim_append_left (by decide : isBlank [' '] = true) t
  rw [classify, hnot, if_neg Bool.false_ne_true, hsection, hkey.cut_line]
  change Line.option (trim (key ++ [' '])) (valueOf (trim (trimEnd (' ' :: t)))) = _
  rw [hname, hvalue]

/-- Reading a line with an equals sign puts an option into the section at hand. -/
theorem Within.reads_option (h : Within outside name table lastKey state)
    (hkey : IsOptionName key) (t : Text) :
    Reads state [key ++ " = " ++ t] (state.put name key (valueOf (trim t))) := by
  have hraw : isIndented (key ++ " = " ++ t) = false := by
    obtain ⟨c, rest, rfl, hc, -⟩ := hkey.exists_cons
    exact not_isIndented_of_isSpace hc _
  exact Reads.cons (step_option (Or.inl hraw) (classify_option hkey t) h.current) (Reads.nil _)

/-! ### Options -/

theorem valueOf_of_ne {t : Text} (htrue : t.map Char.toLower ≠ ("true" : Text))
    (hfalse : t.map Char.toLower ≠ ("false" : Text)) : valueOf t = .text t := by
  rw [valueOf, if_neg htrue, if_neg hfalse]

theorem valueOf_wordOf (b : Bool) : valueOf (trim (wordOf b)) = .boolean b := by
  cases b <;> rfl

/-- Indented lines are put behind the text of the option above them, line by line. -/
theorem Within.reads_continued {further : List Text} {t : Text}
    (hindented : List.Forall₂ (fun line raw => isIndented raw = true ∧ trim raw = line) further
      raws)
    (hlines : ∀ line ∈ further, isIgnored line = false) (ht : t ≠ [])
    (h : Within outside name (Entries.insert key (.text t) table) (some key) state)
    (htable : Entries.Sorted table) : ∃ after, Reads state raws after
      ∧ Within outside name (Entries.insert key (.text (joinWith "\n" (t :: further))) table)
        (some key) after := by
  induction hindented generalizing t state with
  | nil => exact ⟨state, Reads.nil state, h⟩
  | @cons line raw further raws hraw hrest ih =>
      obtain ⟨hline, hfurther⟩ := List.forall_mem_cons.1 hlines
      have hget : Entries.get? key (Entries.insert key (.text t) table) = some (.text t) := by
        rw [Entries.get?_insert htable, if_pos rfl]
      have hlonger : appendLine t (trim raw) = t ++ "\n" ++ line := by
        rw [appendLine, if_neg (by simpa using ht), hraw.2]
      have hstep := step_continued h hraw.1 (by rw [hraw.2]; exact hline) hget
      have hput := h.put key (.text (appendLine t (trim raw)))
      rw [Entries.insert_insert htable, hlonger] at hput
      rw [hlonger] at hstep
      obtain ⟨after, hreads, hafter⟩ := ih hfurther (by simp [ht]) hput
      rw [joinWith_append_cons] at hafter
      exact ⟨after, Reads.cons hstep hreads, hafter⟩

/-- **Reading an option puts its value into the section at hand.** -/
theorem Written.reads (hwritten : Written key value raws) (hkey : IsOptionName key)
    (hvalue : IsWritable value) (h : Within outside name table lastKey state) :
    ∃ after, Reads state raws after
      ∧ Within outside name (Entries.insert key value table) (some key) after := by
  cases hwritten with
  | boolean b =>
      have hreads := h.reads_option hkey (wordOf b)
      rw [valueOf_wordOf] at hreads
      exact ⟨_, hreads, h.put key (.boolean b)⟩
  | @text t first further raws hlines hindented =>
      have hjoin : joinWith "\n" (first :: further) = t := by
        rw [← hlines]
        exact joinWith_splitOn (by decide) t
      have hreads := h.reads_option hkey first
      rcases hvalue with rfl | ⟨first', further', hlines', hok, htrue, hfalse, hcomment⟩
      · -- the only line of the empty text is empty
        obtain ⟨rfl, rfl⟩ := List.cons.inj (hlines.symm.trans (rfl : splitOn "\n" [] = [[]]))
        cases hindented
        exact ⟨_, hreads, h.put key (.text [])⟩
      · obtain ⟨rfl, rfl⟩ := List.cons.inj (hlines.symm.trans hlines')
        obtain ⟨hfirst, hfurther⟩ := List.forall_mem_cons.1 hok
        rw [hfirst.2, valueOf_of_ne htrue hfalse] at hreads
        have hnot : ∀ line ∈ further, isIgnored line = false := by
          intro line hline
          rw [isIgnored, (hcomment line hline).1, (hcomment line hline).2]
          simpa using (hfurther line hline).1
        obtain ⟨after, hrest, hafter⟩ := Within.reads_continued hindented hnot hfirst.1
          (h.put key (.text first)) h.sorted
        rw [hjoin] at hafter
        exact ⟨after, hreads.append hrest, hafter⟩

/-- **Reading several options puts them into the section at hand**, one after the other. -/
theorem WrittenOptions.reads {options : List (Text × Value)}
    (hwritten : WrittenOptions options raws)
    (hoptions : ∀ option ∈ options, IsOptionName option.1 ∧ IsWritable option.2)
    (h : Within outside name table lastKey state) : ∃ after lastKey', Reads state raws after
      ∧ Within outside name (Entries.insertAll table options) lastKey' after := by
  induction hwritten generalizing table lastKey state with
  | nil => exact ⟨state, lastKey, Reads.nil state, h⟩
  | ignored hraw _ ih =>
      obtain ⟨after, lastKey', hreads, hafter⟩ := ih hoptions h
      exact ⟨after, lastKey', Reads.cons (step_ignored hraw) hreads, hafter⟩
  | option hown _ ih =>
      obtain ⟨hoption, hrest⟩ := List.forall_mem_cons.1 hoptions
      obtain ⟨next, hreads, hnext⟩ := hown.reads hoption.1 hoption.2 h
      obtain ⟨after, lastKey', hreads', hafter⟩ := ih hrest hnext
      exact ⟨after, lastKey', hreads.append hreads', hafter⟩

/-! ### Foreign sections -/

/-- Reading the lines below a header changes no other section. -/
theorem Body.reads {canContinue : Bool} (hbody : Body canContinue raws)
    (h : Within outside name table lastKey state)
    (hcontinues : continues table lastKey = canContinue) : ∃ after table' lastKey',
      Reads state raws after ∧ Within outside name table' lastKey' after := by
  induction hbody generalizing table lastKey state with
  | nil => exact ⟨state, table, lastKey, Reads.nil state, h⟩
  | ignored hraw _ ih =>
      obtain ⟨after, table', lastKey', hreads, hafter⟩ := ih h hcontinues
      exact ⟨after, table', lastKey', Reads.cons (step_ignored hraw) hreads, hafter⟩
  | @option canContinue raw key value raws hraw hline _ ih =>
      have hnot : isIndented raw = false ∨ continue? state (trim raw) = none :=
        hraw.imp id fun hfalse => h.continue?_eq_none (hcontinues.trans hfalse) _
      obtain ⟨after, table', lastKey', hreads, hafter⟩ :=
        ih (h.put key value) (continues_insert h.sorted key value)
      exact ⟨after, table', lastKey', Reads.cons (step_option hnot hline h.current) hreads, hafter⟩
  | @continued raw raws hraw hline _ ih =>
      obtain ⟨key, t, rfl, hget⟩ := continues_iff.1 hcontinues
      have hput := h.put key (.text (appendLine t (trim raw)))
      obtain ⟨after, table', lastKey', hreads, hafter⟩ := ih hput (continues_insert h.sorted key _)
      exact ⟨after, table', lastKey', Reads.cons (step_continued h hraw hline hget) hreads, hafter⟩

/-! ### Documents -/

/-- A header begins the section it names. -/
theorem sectionName?_header (hname : trim name = name) :
    sectionName? (trim ("[" ++ name ++ "]")) = some name := by
  have htrim : trim ("[" ++ name ++ "]") = '[' :: (name ++ [']']) := by
    change trim ('[' :: (name ++ [']'])) = _
    rw [trim, trimStart_cons (by decide), ← List.cons_append, trimEnd_concat (by decide)]
  have hleading : dropLeading? "[" ('[' :: (name ++ [']'])) = some (name ++ [']']) :=
    dropLeading?_eq_some_iff.2 rfl
  have htrailing : dropTrailing? "]" (name ++ [']']) = some name :=
    dropTrailing?_eq_some_iff.2 rfl
  rw [htrim, sectionName?, hleading, Option.bind_some, htrailing, Option.map_some, hname]

/-- **Reading a document** leaves the sections of the tool with the options they were written
with, and begins no other section of the tool. -/
theorem Document.reads {own : List (Text × Table)} (hdocument : Document tool own raws)
    (hnames : ∀ named ∈ own, trim named.1 = named.1)
    (hsorted : ∀ named ∈ own, Entries.Sorted named.2)
    (hoptions : ∀ named ∈ own, ∀ option ∈ named.2, IsKey option.1 ∧ IsWritable option.2)
    (hdistinct : (own.map Prod.fst).Nodup) (hstate : state.Ordered)
    (hnew : ∀ named ∈ own, Entries.get? named.1 state.sections = none)
    (hown : ∀ named ∈ own, IsSectionOf tool named.1) :
    ∃ after, Reads state raws after ∧ after.Ordered
      ∧ (∀ named ∈ own, Entries.get? named.1 after.sections = some named.2)
      ∧ ∀ name, IsSectionOf tool name → name ∉ own.map Prod.fst →
          Entries.get? name after.sections = Entries.get? name state.sections := by
  induction hdocument generalizing state with
  | nil => exact ⟨state, Reads.nil state, hstate, by simp, fun _ _ _ => rfl⟩
  | ignored hraw _ ih =>
      obtain ⟨after, hreads, hafter⟩ := ih hnames hsorted hoptions hdistinct hstate hnew hown
      exact ⟨after, Reads.cons (step_ignored hraw) hreads, hafter⟩
  | @own name table options own body raws hperm hbody _ ih =>
      obtain ⟨hname, hnames⟩ := List.forall_mem_cons.1 hnames
      obtain ⟨htable, hsorted⟩ := List.forall_mem_cons.1 hsorted
      obtain ⟨hoption, hoptions⟩ := List.forall_mem_cons.1 hoptions
      obtain ⟨hfresh, hdistinct⟩ := List.nodup_cons.1 hdistinct
      obtain ⟨hnone, hnew⟩ := List.forall_mem_cons.1 hnew
      obtain ⟨hsection, hown⟩ := List.forall_mem_cons.1 hown
      have hheader : ∀ n, step state ("[" ++ name ++ "]", n) = .ok (state.opened name) :=
        step_section (not_isIndented_of_isSpace (by decide) _) (sectionName?_header hname)
      have hopened := Within.opened hstate name
      rw [show Entries.get? name state.sections = none from hnone, Option.getD_none] at hopened
      obtain ⟨next, lastKey, hreads, hnext⟩ := hbody.reads
        (fun option hmem => (hoption option (hperm.mem_iff.1 hmem)).imp_left IsKey.isOptionName)
        hopened
      rw [Entries.insertAll_perm htable hperm] at hnext
      have hother : ∀ named ∈ own, named.1 ≠ name := fun named hmem heq =>
        hfresh (List.mem_map.2 ⟨named, hmem, heq⟩)
      obtain ⟨after, hrest, hafter, hfound, hkept⟩ := ih hnames hsorted hoptions hdistinct
        hnext.ordered
        (fun named hmem => (hnext.outside _ (hother named hmem)).trans (hnew named hmem)) hown
      refine ⟨after, Reads.cons hheader (hreads.append hrest), hafter, ?_, ?_⟩
      · exact List.forall_mem_cons.2 ⟨(hkept name hsection hfresh).trans hnext.inside, hfound⟩
      · intro other hsection hmem
        rw [List.map_cons, List.mem_cons, not_or] at hmem
        exact (hkept other hsection hmem.2).trans (hnext.outside other hmem.1)
  | @other own raw name body raws hraw hname hother hbody _ ih =>
      obtain ⟨next, table, lastKey, hreads, hnext⟩ :=
        hbody.reads (Within.opened hstate name) (continues_none _)
      have hne : ∀ other, IsSectionOf tool other → other ≠ name := fun _ hsection heq =>
        hother (heq ▸ hsection)
      obtain ⟨after, hrest, hafter, hfound, hkept⟩ := ih hnames hsorted hoptions hdistinct
        hnext.ordered
        (fun named hmem => (hnext.outside _ (hne _ (hown named hmem))).trans (hnew named hmem)) hown
      exact ⟨after, Reads.cons (step_section hraw hname) (hreads.append hrest), hafter, hfound,
        fun other hsection hmem =>
          (hkept other hsection hmem).trans (hnext.outside other (hne other hsection))⟩

end Ini

end Config

end GitHooks
