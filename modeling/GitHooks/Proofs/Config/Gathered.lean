/-
**The sections of a tool gathered into one table.**

In INI form the table of a tool is spread over several sections: the options that are no tables
stand in the section of the tool, and every nested table has a section below it.  Gathering these
puts the options of the first and one table for each of the others into an empty table.  No option
is put in twice, so the order in which the sections come does not matter, and neither do the
sections of others.

Main definitions:

* `Config.contribution` — what a section puts into the table of a tool;
* `Config.sectionsOf` — the sections over which the table of a tool is spread;
* `Config.IsWritableTable` — the tables that can be spread and written.

Main results:

* `Config.perm_contributions` — the sections of a table put in the entries of the table;
* `Config.iniSection?_eq_some` — the sections of a table are gathered into the table;
* `Config.iniSection?_of_document` — a table that is spread over a document is found in it.
-/

import GitHooks.Config.File
import GitHooks.Proofs.Config.Written
import Mathlib.Data.List.Nodup

set_option relaxedAutoImplicit false
set_option autoImplicit false

namespace GitHooks

namespace Config

open Text Ini

variable {tool : Text} {table : Table} {sections : Entries Table} {own : List (Text × Table)}

/-! ### What a section puts in -/

/-- What a section puts into the table of a tool: its options, if it is the section of the tool,
and one table, if it is a section below that. -/
def contribution (tool : Text) (named : Text × Table) : List (Text × Value) :=
  if named.1 = sectionOf tool then named.2
  else
    match dropLeading? (sectionOf tool ++ ".") named.1 with
    | some key => [(key, .table named.2)]
    | none => []

/-- Sections as the values of a table. -/
def asValues (sections : Entries Table) : Table :=
  sections.map fun named => (named.1, .table named.2)

theorem contribution_of_not_isSectionOf {named : Text × Table}
    (h : ¬ IsSectionOf tool named.1) : contribution tool named = [] := by
  rw [IsSectionOf, not_or] at h
  rw [contribution, if_neg h.1, dropLeading?_eq_none_iff.2 h.2]

theorem addSection_table (found : Option Table) (named : Text × Table) :
    addSection tool found (named.1, .table named.2)
      = if IsSectionOf tool named.1
          then some (Entries.insertAll (found.getD []) (contribution tool named))
          else found := by
  obtain ⟨name, table⟩ := named
  by_cases hname : name = sectionOf tool
  · subst hname
    have hsection : IsSectionOf tool (sectionOf tool) := Or.inl rfl
    rw [if_pos hsection, contribution, if_pos rfl]
    exact if_pos rfl
  · simp only [contribution, if_neg hname]
    change (if name = sectionOf tool then _ else
      match dropLeading? (sectionOf tool ++ ".") name with
      | some key => some (Entries.insert key (Value.table table) (found.getD []))
      | none => found) = _
    rw [if_neg hname]
    cases hleft : dropLeading? (sectionOf tool ++ ".") name with
    | some key =>
        have hsection : IsSectionOf tool name :=
          Or.inr ⟨key, (dropLeading?_eq_some_iff.1 hleft).symm⟩
        rw [if_pos hsection]
        rfl
    | none =>
        have hother : ¬ IsSectionOf tool name :=
          not_or.2 ⟨hname, dropLeading?_eq_none_iff.1 hleft⟩
        rw [if_neg hother]

/-! ### Gathering -/

theorem foldl_addSection_some (sections : Entries Table) (found : Table) :
    (asValues sections).foldl (addSection tool) (some found)
      = some (Entries.insertAll found (sections.flatMap (contribution tool))) := by
  induction sections generalizing found with
  | nil => rfl
  | cons named rest ih =>
      rw [asValues, List.map_cons, List.foldl_cons, addSection_table, List.flatMap_cons, ← asValues]
      by_cases hsection : IsSectionOf tool named.1
      · rw [if_pos hsection, ih, Option.getD_some, Entries.insertAll_append]
      · rw [if_neg hsection, ih, contribution_of_not_isSectionOf hsection, List.nil_append]

/-- A tool that has a section has the table of what its sections put in. -/
theorem iniSection?_asValues (h : ∃ named ∈ sections, IsSectionOf tool named.1) :
    iniSection? (asValues sections) tool
      = some (Entries.insertAll [] (sections.flatMap (contribution tool))) := by
  induction sections with
  | nil => simp at h
  | cons named rest ih =>
      rw [iniSection?, asValues, List.map_cons, List.foldl_cons, addSection_table,
        List.flatMap_cons, ← asValues]
      by_cases hsection : IsSectionOf tool named.1
      · rw [if_pos hsection, foldl_addSection_some, Option.getD_none, Entries.insertAll_append]
      · have hrest : ∃ named ∈ rest, IsSectionOf tool named.1 := by simpa [hsection] using h
        rw [if_neg hsection, ← iniSection?, ih hrest, contribution_of_not_isSectionOf hsection,
          List.nil_append]

/-! ### The sections of a table -/

/-- The name of the section for a nested table. -/
def subsectionOf (tool key : Text) : Text := sectionOf tool ++ "." ++ key

/-- The section for a nested table. -/
def blockSection? (tool : Text) (option : Text × Value) : Option (Text × Table) :=
  option.2.table?.map fun block => (subsectionOf tool option.1, block)

/-- The sections over which the table of a tool is spread: one for the options that are no tables,
and one for each nested table. -/
def sectionsOf (tool : Text) (table : Table) : List (Text × Table) :=
  (sectionOf tool, table.filter fun option => option.2.table?.isNone)
    :: table.filterMap (blockSection? tool)

theorem subsectionOf_ne (tool key : Text) : subsectionOf tool key ≠ sectionOf tool := by
  intro h
  have hlength := congrArg List.length h
  simp [subsectionOf] at hlength

theorem subsectionOf_inj {key key' : Text} :
    subsectionOf tool key = subsectionOf tool key' ↔ key = key' :=
  List.append_right_inj _

theorem blockSection?_eq_some_iff {option : Text × Value} {named : Text × Table} :
    blockSection? tool option = some named
      ↔ ∃ key block, option = (key, .table block) ∧ named = (subsectionOf tool key, block) := by
  obtain ⟨key, value⟩ := option
  cases value <;> simp [blockSection?, Value.table?, eq_comm]

theorem mem_sectionsOf_iff {named : Text × Table} :
    named ∈ sectionsOf tool table
      ↔ named = (sectionOf tool, table.filter fun option => option.2.table?.isNone)
        ∨ ∃ key block, (key, .table block) ∈ table ∧ named = (subsectionOf tool key, block) := by
  rw [sectionsOf, List.mem_cons, List.mem_filterMap]
  refine or_congr_right ⟨?_, ?_⟩
  · rintro ⟨option, hmem, hsection⟩
    obtain ⟨key, block, rfl, rfl⟩ := blockSection?_eq_some_iff.1 hsection
    exact ⟨key, block, hmem, rfl⟩
  · rintro ⟨key, block, hmem, rfl⟩
    exact ⟨_, hmem, blockSection?_eq_some_iff.2 ⟨key, block, rfl, rfl⟩⟩

theorem isSectionOf_of_mem_sectionsOf {named : Text × Table} (h : named ∈ sectionsOf tool table) :
    IsSectionOf tool named.1 := by
  rcases mem_sectionsOf_iff.1 h with rfl | ⟨key, block, -, rfl⟩
  · exact Or.inl rfl
  · exact Or.inr (List.prefix_append _ key)

/-- The sections of a table have different names. -/
theorem nodup_sectionsOf (h : Entries.Sorted table) :
    ((sectionsOf tool table).map Prod.fst).Nodup := by
  rw [sectionsOf, List.map_cons, List.nodup_cons]
  constructor
  · intro hmem
    obtain ⟨named, hnamed, heq⟩ := List.mem_map.1 hmem
    obtain ⟨option, -, hsection⟩ := List.mem_filterMap.1 hnamed
    obtain ⟨key, block, -, rfl⟩ := blockSection?_eq_some_iff.1 hsection
    exact subsectionOf_ne tool key heq
  · refine List.pairwise_map.2 (List.pairwise_filterMap.2 (h.imp ?_))
    intro option option' hlt named hnamed named' hnamed' heq
    obtain ⟨key, block, rfl, rfl⟩ := blockSection?_eq_some_iff.1 hnamed
    obtain ⟨key', block', rfl, rfl⟩ := blockSection?_eq_some_iff.1 hnamed'
    obtain rfl : key = key' := subsectionOf_inj.1 heq
    exact List.lt_irrefl key hlt

theorem contribution_subsectionOf (tool key : Text) (block : Table) :
    contribution tool (subsectionOf tool key, block) = [(key, .table block)] := by
  rw [contribution, if_neg (subsectionOf_ne tool key)]
  have hleft : dropLeading? (sectionOf tool ++ ".") (subsectionOf tool key) = some key :=
    dropLeading?_append _ key
  simp only [hleft]

theorem flatMap_blockSections (tool : Text) (table : Table) :
    (table.filterMap (blockSection? tool)).flatMap (contribution tool)
      = table.filter fun option => !option.2.table?.isNone := by
  induction table with
  | nil => rfl
  | cons option rest ih =>
      obtain ⟨key, value⟩ := option
      cases hvalue : value.table? with
      | none => simp [blockSection?, hvalue, ih]
      | some block =>
          obtain rfl : value = .table block := by cases value <;> simp_all [Value.table?]
          have hblock : blockSection? tool (key, .table block)
              = some (subsectionOf tool key, block) := rfl
          rw [List.filterMap_cons, hblock, List.flatMap_cons, contribution_subsectionOf, ih]
          rfl

/-- **The sections of a table put in the entries of the table.** -/
theorem perm_contributions (tool : Text) (table : Table) :
    ((sectionsOf tool table).flatMap (contribution tool)).Perm table := by
  have hheader : contribution tool
      (sectionOf tool, table.filter fun option => option.2.table?.isNone)
        = table.filter fun option => option.2.table?.isNone := if_pos rfl
  rw [sectionsOf, List.flatMap_cons, hheader, flatMap_blockSections]
  exact List.filter_append_perm _ table

/-! ### Finding a table -/

theorem flatMap_contribution_filter (sections : Entries Table) :
    (sections.filter fun named => IsSectionOf tool named.1).flatMap (contribution tool)
      = sections.flatMap (contribution tool) := by
  induction sections with
  | nil => rfl
  | cons named rest ih =>
      by_cases hsection : IsSectionOf tool named.1
      · simp [hsection, ih]
      · simp [hsection, ih, contribution_of_not_isSectionOf hsection]

/-- **The sections of a table are gathered into the table**, in whatever order they are found and
whatever other sections there are. -/
theorem iniSection?_eq_some (hsections : Entries.Sorted sections) (htable : Entries.Sorted table)
    (hperm : own.Perm (sectionsOf tool table))
    (hfound : ∀ named ∈ own, Entries.get? named.1 sections = some named.2)
    (hnone : ∀ name, IsSectionOf tool name → name ∉ own.map Prod.fst →
      Entries.get? name sections = none) :
    iniSection? (asValues sections) tool = some table := by
  have hsection : ∀ named ∈ own, IsSectionOf tool named.1 := fun named hmem =>
    isSectionOf_of_mem_sectionsOf (hperm.mem_iff.1 hmem)
  have hdistinct : (own.map Prod.fst).Nodup :=
    (hperm.map Prod.fst).nodup_iff.2 (nodup_sectionsOf htable)
  -- the sections of the tool are those that were found
  have hown : (sections.filter fun named => IsSectionOf tool named.1).Perm own := by
    have hnodup : sections.Nodup := List.Nodup.of_map Prod.fst (Entries.nodup_keys hsections)
    have hnodup' : own.Nodup := List.Nodup.of_map Prod.fst hdistinct
    refine (List.perm_ext_iff_of_nodup (hnodup.filter _) hnodup').2 fun named => ?_
    rw [List.mem_filter, decide_eq_true_eq]
    constructor
    · rintro ⟨hmem, hname⟩
      have hget : Entries.get? named.1 sections = some named.2 :=
        (Entries.mem_iff_get? hsections).1 hmem
      have hkey : named.1 ∈ own.map Prod.fst := by
        by_contra hnot
        rw [hnone named.1 hname hnot] at hget
        cases hget
      obtain ⟨named', hmem', hname'⟩ := List.mem_map.1 hkey
      have hget' := hfound named' hmem'
      rw [hname', hget, Option.some_inj] at hget'
      rwa [Prod.ext hname'.symm hget']
    · intro hmem
      exact ⟨(Entries.mem_iff_get? hsections).2 (hfound named hmem), hsection named hmem⟩
  have hentries : (sections.flatMap (contribution tool)).Perm table := by
    rw [← flatMap_contribution_filter]
    exact ((hown.trans hperm).flatMap_right _).trans (perm_contributions tool table)
  have hsome : ∃ named ∈ sections, IsSectionOf tool named.1 := by
    have hheader : (sectionOf tool, table.filter fun option => option.2.table?.isNone) ∈ own :=
      hperm.mem_iff.2 List.mem_cons_self
    exact ⟨_, (Entries.mem_iff_get? hsections).2 (hfound _ hheader), Or.inl rfl⟩
  rw [iniSection?_asValues hsome, Entries.insertAll_perm htable hentries]

/-! ### Documents -/

/-- Names that can be part of the name of a section. -/
def IsName (name : Text) : Prop := name ≠ [] ∧ trim name = name

instance (name : Text) : Decidable (IsName name) := inferInstanceAs (Decidable (_ ∧ _))

/-- Tables that can be spread over sections and written: nested tables are nested once. -/
structure IsWritableTable (table : Table) : Prop where
  sorted : Entries.Sorted table
  options : ∀ option ∈ table, option.2.table? = none → IsKey option.1 ∧ IsWritable option.2
  names : ∀ key block, (key, .table block) ∈ table → IsName key
  blocks : ∀ key block, (key, .table block) ∈ table → Entries.Sorted block
  blockOptions : ∀ key block, (key, .table block) ∈ table →
    ∀ option ∈ block, IsKey option.1 ∧ IsWritable option.2

/-- The options in the sections of such a table can be written. -/
theorem IsWritableTable.of_mem_sectionsOf (htable : IsWritableTable table)
    {named : Text × Table} (hmem : named ∈ sectionsOf tool table) :
    ∀ option ∈ named.2, IsKey option.1 ∧ IsWritable option.2 := by
  intro option hoption
  rcases mem_sectionsOf_iff.1 hmem with rfl | ⟨key, block, hblock, rfl⟩
  · obtain ⟨hoption, hnone⟩ := List.mem_filter.1 hoption
    exact htable.options option hoption (by simpa using hnone)
  · exact htable.blockOptions key block hblock option hoption

theorem trim_append_of_isName {c : Char} {name : Text} (hname : IsName name)
    (hc : isSpace c = false) (t : Text) : trim (c :: (t ++ name)) = c :: (t ++ name) := by
  obtain ⟨-, u, d, hend, hd⟩ := ends_of_trim_eq hname.2 hname.1
  rw [trim, trimStart_cons hc, hend, ← List.append_assoc, ← List.cons_append, trimEnd_concat hd]

/-- **A table that is spread over a document is found in it.** -/
theorem iniSection?_of_document {content : Text} (htool : IsName tool)
    (htable : IsWritableTable table) (hperm : own.Perm (sectionsOf tool table))
    (hdocument : Document tool own (lines content)) :
    ∃ sections, Ini.parse content = .ok sections ∧ iniSection? sections tool = some table := by
  have hnames : ∀ named ∈ own, trim named.1 = named.1 := by
    intro named hmem
    rcases mem_sectionsOf_iff.1 (hperm.mem_iff.1 hmem) with rfl | ⟨key, block, hblock, rfl⟩
    · exact trim_append_of_isName htool (by decide) "ool."
    · exact trim_append_of_isName (htable.names key block hblock) (by decide) _
  have hsorted : ∀ named ∈ own, Entries.Sorted named.2 := by
    intro named hmem
    rcases mem_sectionsOf_iff.1 (hperm.mem_iff.1 hmem) with rfl | ⟨key, block, hblock, rfl⟩
    · exact htable.sorted.filter _
    · exact htable.blocks key block hblock
  have hoptions : ∀ named ∈ own, ∀ option ∈ named.2, IsKey option.1 ∧ IsWritable option.2 :=
    fun named hmem => htable.of_mem_sectionsOf (hperm.mem_iff.1 hmem)
  have hdistinct : (own.map Prod.fst).Nodup :=
    (hperm.map Prod.fst).nodup_iff.2 (nodup_sectionsOf htable.sorted)
  obtain ⟨after, hreads, hafter, hfound, hkept⟩ := hdocument.reads hnames hsorted hoptions hdistinct
    State.ordered_initial (fun _ _ => rfl)
    fun named hmem => isSectionOf_of_mem_sectionsOf (hperm.mem_iff.1 hmem)
  refine ⟨asValues after.sections, ?_, ?_⟩
  · rw [Ini.parse, hreads.sections_eq]
    rfl
  · exact iniSection?_eq_some hafter.sections htable.sorted hperm hfound hkept

end Config

end GitHooks
