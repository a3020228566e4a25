/-
**The lines that a search reads.**

The search for a notice reads the lines of the header's segments.  A visit is one such reading:
a segment, a line of it and the index of the line.  Visits are in the order of the lines, each line
is visited at most once, and the search is decided by the first visit that reads a notice.  So a
change to the line of the notice that leaves the segments alone changes one reading and no other.

Main definitions:

* `Header.Visit`, `Header.visits` — the readings of a search, in order;
* `Scan.remarks` — the malformed notices among some readings.

Main results:

* `Header.mem_visits_iff`, `Header.visits_pairwise` — what is visited, and in which order;
* `Notice.find_eq_some_iff` — a notice is found at the first visit that reads one;
* `Notice.find_modify` — a change to the line of the notice is read at that line only.
-/

import GitHooks.Notice.Search
import GitHooks.Proofs.Header.Segments

set_option relaxedAutoImplicit false
set_option autoImplicit false

namespace GitHooks

/-! ### Readings -/

/-- The malformed notices among some readings. -/
def Scan.remarks (readings : List (Except Malformed (Option Notice))) : List Malformed :=
  readings.filterMap fun reading =>
    match reading with
    | Except.error malformed => some malformed
    | Except.ok _ => none

theorem Scan.ofReadings_append {front : List (Except Malformed (Option Notice))}
    (h : ∀ notice, Except.ok (some notice) ∉ front)
    (readings : List (Except Malformed (Option Notice))) :
    Scan.ofReadings (front ++ readings)
      = ⟨(Scan.ofReadings readings).notice,
          remarks front ++ (Scan.ofReadings readings).warnings⟩ := by
  induction front with
  | nil => rfl
  | cons reading front ih =>
      have ih := ih fun notice hm => h notice (List.mem_cons_of_mem _ hm)
      rcases reading with malformed | _ | notice
      · rw [List.cons_append, Scan.ofReadings_malformed, ih]
        rfl
      · rw [List.cons_append, Scan.ofReadings_none, ih]
        rfl
      · exact absurd (List.mem_cons_self ..) (h notice)

/-- A notice is the first among the readings, and the remarks are those made before it. -/
theorem Scan.ofReadings_eq_some_iff {readings : List (Except Malformed (Option Notice))}
    {notice : Notice} {warnings : List Malformed} :
    Scan.ofReadings readings = ⟨some notice, warnings⟩ ↔
      ∃ front back, readings = front ++ Except.ok (some notice) :: back
        ∧ (∀ other, Except.ok (some other) ∉ front) ∧ remarks front = warnings := by
  constructor
  · intro h
    induction readings generalizing warnings with
    | nil => simp at h
    | cons reading readings ih =>
        rcases reading with malformed | _ | other
        · rw [Scan.ofReadings_malformed, Scan.mk.injEq] at h
          obtain ⟨hn, rfl⟩ := h
          have hs : Scan.ofReadings readings
              = ⟨some notice, (Scan.ofReadings readings).warnings⟩ := by rw [← hn]
          obtain ⟨front, back, rfl, hf, hw⟩ := ih hs
          refine ⟨Except.error malformed :: front, back, rfl, by simpa using hf, ?_⟩
          rw [← hw]
          rfl
        · rw [Scan.ofReadings_none] at h
          obtain ⟨front, back, rfl, hf, hw⟩ := ih h
          exact ⟨Except.ok none :: front, back, rfl, by simpa using hf, hw⟩
        · rw [Scan.ofReadings_notice, Scan.mk.injEq, Option.some.injEq] at h
          obtain ⟨rfl, rfl⟩ := h
          exact ⟨[], readings, rfl, by simp, rfl⟩
  · rintro ⟨front, back, rfl, hf, rfl⟩
    rw [Scan.ofReadings_append hf]
    simp

theorem Scan.isSome_ofReadings_iff {readings : List (Except Malformed (Option Notice))} :
    (Scan.ofReadings readings).notice.isSome = true
      ↔ ∃ notice, Except.ok (some notice) ∈ readings := by
  induction readings with
  | nil => simp
  | cons reading readings ih =>
      rcases reading with malformed | _ | notice
      · simpa using ih
      · simpa using ih
      · simp

/-! ### Visits -/

/-- The items of a list at the positions of a span, told by their positions. -/
theorem Span.mem_slice_zipIdx_iff {α : Type} {span : Span} {items : List α} {item : α} {i : Nat} :
    (item, i) ∈ span.slice items.zipIdx ↔
      span.start ≤ i ∧ i < span.stop ∧ items[i]? = some item := by
  rw [Span.slice, List.mem_iff_getElem?]
  constructor
  · rintro ⟨k, hk⟩
    rw [List.getElem?_take] at hk
    split at hk
    · rw [List.getElem?_drop, List.getElem?_zipIdx] at hk
      obtain ⟨a, ha, he⟩ := Option.map_eq_some_iff.1 hk
      obtain ⟨rfl, rfl⟩ := Prod.mk.inj he
      exact ⟨by omega, by omega, by simpa using ha⟩
    · simp at hk
  · rintro ⟨h₁, h₂, hi⟩
    refine ⟨i - span.start, ?_⟩
    have he : span.start + (i - span.start) = i := by omega
    rw [List.getElem?_take, if_pos (by omega), List.getElem?_drop, he, List.getElem?_zipIdx, hi]
    simp

namespace Header

/-- A line that a search reads, with the segment it is read in and its index. -/
structure Visit where
  segment : Segment
  line : Text
  index : Nat
deriving DecidableEq, Repr

variable {language : Language} {lines : List Text}

/-- The lines of one segment that a search reads. -/
def visitsIn (lines : List Text) (segment : Segment) : List Visit :=
  (segment.lines.slice lines.zipIdx).map fun (line, index) => ⟨segment, line, index⟩

/-- The lines that a search reads, in order. -/
def visits (language : Language) (lines : List Text) : List Visit :=
  (segments language lines).flatMap (visitsIn lines)

theorem mem_visitsIn_iff {segment : Segment} {visit : Visit} :
    visit ∈ visitsIn lines segment ↔ visit.segment = segment
      ∧ segment.lines.start ≤ visit.index ∧ visit.index < segment.lines.stop
      ∧ lines[visit.index]? = some visit.line := by
  rw [visitsIn, List.mem_map]
  constructor
  · rintro ⟨⟨line, index⟩, hm, rfl⟩
    exact ⟨rfl, Span.mem_slice_zipIdx_iff.1 hm⟩
  · rintro ⟨rfl, hm⟩
    exact ⟨(visit.line, visit.index), Span.mem_slice_zipIdx_iff.2 hm, rfl⟩

/-- The visited lines are the lines of the segments. -/
theorem mem_visits_iff {visit : Visit} :
    visit ∈ visits language lines ↔ visit.segment ∈ segments language lines
      ∧ visit.segment.lines.start ≤ visit.index ∧ visit.index < visit.segment.lines.stop
      ∧ lines[visit.index]? = some visit.line := by
  rw [visits, List.mem_flatMap]
  constructor
  · rintro ⟨segment, hs, hv⟩
    obtain ⟨rfl, h⟩ := mem_visitsIn_iff.1 hv
    exact ⟨hs, h⟩
  · rintro ⟨hs, h⟩
    exact ⟨visit.segment, hs, mem_visitsIn_iff.2 ⟨rfl, h⟩⟩

theorem visitsIn_pairwise (lines : List Text) (segment : Segment) :
    (visitsIn lines segment).Pairwise fun u v => u.index < v.index := by
  rw [visitsIn, List.pairwise_map]
  refine List.Pairwise.sublist ((List.take_sublist _ _).trans (List.drop_sublist _ _)) ?_
  rw [List.pairwise_iff_getElem]
  intro i j hi hj hij
  simpa using hij

/-- Lines are visited from the top down, each of them once. -/
theorem visits_pairwise (language : Language) (lines : List Text) :
    (visits language lines).Pairwise fun u v => u.index < v.index := by
  rw [visits, List.pairwise_flatMap]
  refine ⟨fun segment _ => visitsIn_pairwise lines segment, ?_⟩
  refine (segments_pairwise language lines).imp fun {s t} hst u hu v hv => ?_
  have hu := mem_visitsIn_iff.1 hu
  have hv := mem_visitsIn_iff.1 hv
  omega

/-- Changing one line without changing the segments changes the visit of that line only. -/
theorem visits_modify {k : Nat} {f : Text → Text}
    (h : segments language (lines.modify k f) = segments language lines) :
    visits language (lines.modify k f)
      = (visits language lines).map fun visit =>
          { visit with line := if visit.index = k then f visit.line else visit.line } := by
  have hz : (lines.modify k f).zipIdx
      = lines.zipIdx.map fun (line, i) => (if i = k then f line else line, i) := by
    refine List.ext_getElem (by simp) fun i h₁ h₂ => ?_
    by_cases hk : k = i
    · simp [hk]
    · simp [hk, Ne.symm hk]
  rw [visits, h, visits, List.map_flatMap]
  congr 1
  funext segment
  rw [visitsIn, hz, visitsIn, Span.slice, Span.slice, ← List.map_drop, ← List.map_take,
    List.map_map, List.map_map]
  rfl

end Header

/-! ### The search -/

namespace Notice

open Header (Visit visits)

variable {language : Language} {lines : List Text}

/-- The reading of a visited line. -/
def readVisit (comments : CommentStyle) (visit : Visit) : Except Malformed (Option Notice) :=
  readLine comments visit.segment visit.line visit.index

theorem find_eq_visits (language : Language) (lines : List Text) :
    find language lines
      = Scan.ofReadings ((visits language lines).map (readVisit language.comments)) := by
  rw [find, visits, List.map_flatMap]
  congr 2
  funext segment
  rw [readSegment, Header.visitsIn, List.map_map]
  rfl

/-- **A notice is found** at the first visit that reads one, with the remarks made before it. -/
theorem find_eq_some_iff {notice : Notice} {warnings : List Malformed} :
    find language lines = ⟨some notice, warnings⟩ ↔
      ∃ front visit back, visits language lines = front ++ visit :: back
        ∧ readVisit language.comments visit = Except.ok (some notice)
        ∧ (∀ other, Except.ok (some other) ∉ front.map (readVisit language.comments))
        ∧ Scan.remarks (front.map (readVisit language.comments)) = warnings := by
  rw [find_eq_visits, Scan.ofReadings_eq_some_iff]
  constructor
  · rintro ⟨front, back, h, hf, hw⟩
    obtain ⟨front, rest, hv, rfl, hr⟩ := List.map_eq_append_iff.1 h
    obtain ⟨visit, back, rfl, hn, rfl⟩ := List.map_eq_cons_iff.1 hr
    exact ⟨front, visit, back, hv, hn, hf, hw⟩
  · rintro ⟨front, visit, back, hv, hn, hf, hw⟩
    refine ⟨front.map (readVisit language.comments), back.map (readVisit language.comments), ?_,
      hf, hw⟩
    rw [hv, List.map_append, List.map_cons, hn]

theorem isSome_find_iff : (find language lines).notice.isSome = true ↔
    ∃ visit ∈ visits language lines, ∃ notice,
      readVisit language.comments visit = Except.ok (some notice) := by
  rw [find_eq_visits, Scan.isSome_ofReadings_iff]
  simp only [List.mem_map]
  constructor
  · rintro ⟨notice, visit, hv, hn⟩
    exact ⟨visit, hv, notice, hn⟩
  · rintro ⟨visit, hv, notice, hn⟩
    exact ⟨notice, visit, hv, hn⟩

/-- **A change to the line of the notice** that leaves the segments alone is read at that line and
nowhere else: if the changed line is read as a notice, that is the notice now found. -/
theorem find_modify {notice : Notice} {warnings : List Malformed}
    (h : find language lines = ⟨some notice, warnings⟩) :
    ∃ visit ∈ visits language lines,
      readVisit language.comments visit = Except.ok (some notice) ∧
      ∀ (f : Text → Text) (notice' : Notice),
        Header.segments language (lines.modify visit.index f) = Header.segments language lines →
        readLine language.comments visit.segment (f visit.line) visit.index
          = Except.ok (some notice') →
        find language (lines.modify visit.index f) = ⟨some notice', warnings⟩ := by
  obtain ⟨front, visit, back, hv, hn, hf, hw⟩ := find_eq_some_iff.1 h
  refine ⟨visit, by simp [hv], hn, fun f notice' hs hr => ?_⟩
  have hp := Header.visits_pairwise language lines
  rw [hv, List.pairwise_append] at hp
  -- the visits before this one are of lines further up, which have not changed
  have hfront : front.map (fun u : Visit =>
      { u with line := if u.index = visit.index then f u.line else u.line }) = front := by
    refine (List.map_congr_left fun u hu => ?_).trans (List.map_id front)
    have hlt := hp.2.2 u hu visit (List.mem_cons_self ..)
    rw [if_neg (by omega)]
    rfl
  have hvisits := Header.visits_modify hs
  rw [hv, List.map_append, List.map_cons, hfront, if_pos rfl] at hvisits
  exact find_eq_some_iff.2 ⟨front, _, _, hvisits, hr, hf, hw⟩

end Notice

end GitHooks
