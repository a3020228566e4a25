/-
**Nothing behind the header is searched.**

The first line of code ends the header, and what stands behind it has no say in the search.  The
scan finds the same segments, all of them in front of the line of code, and their lines are where
they were; so the same lines are read, and the same notice is found with the same remarks.

Main results:

* `Notice.find_append` — a search that finds the same segments finds the same notice;
* `Notice.find_behind_code` — what stands behind the first line of code is without effect.
-/

import GitHooks.Proofs.Header.Reached
import GitHooks.Proofs.Notice.WellFormed

set_option relaxedAutoImplicit false
set_option autoImplicit false

namespace GitHooks

/-- The items at the positions of a span are the same with others behind the list. -/
theorem Span.slice_append_of_le {α : Type} {span : Span} {items : List α}
    (hstart : span.start ≤ span.stop) (hstop : span.stop ≤ items.length) (more : List α) :
    span.slice (items ++ more) = span.slice items := by
  have hstart' : span.start ≤ items.length := Nat.le_trans hstart hstop
  rw [Span.slice, Span.slice, List.drop_append_of_le_length hstart',
    List.take_append_of_le_length]
  rw [List.length_drop]
  omega

namespace Notice

open Text
open Header (Segment StopsAt)

variable {language : Language} {lines front : List Text} {code : Text}

/-- The lines of a segment are read the same with others behind the file. -/
theorem readSegment_append {segment : Segment} (hmem : segment ∈ Header.segments language lines)
    (tail : List Text) :
    readSegment language.comments (lines ++ tail) segment
      = readSegment language.comments lines segment := by
  obtain ⟨hstart, hstop⟩ := Header.segments_bounds language lines segment hmem
  have hlength : segment.lines.stop ≤ lines.zipIdx.length := by rwa [List.length_zipIdx]
  rw [readSegment, readSegment, List.zipIdx_append,
    Span.slice_append_of_le (Nat.le_of_lt hstart) hlength]

/-- **A search that finds the same segments finds the same notice**, with the same remarks. -/
theorem find_append {tail : List Text}
    (h : Header.segments language (lines ++ tail) = Header.segments language lines) :
    find language (lines ++ tail) = find language lines := by
  rw [find, find, h]
  refine congrArg Scan.ofReadings (List.flatMap_congr fun segment hmem => ?_)
  exact readSegment_append hmem tail

/-- A notice that is found is on a line of the file, so lines behind do not change where its years
are counted. -/
theorem inBytes_find_append (language : Language) (lines tail : List Text) :
    (find language lines).inBytes (lines ++ tail) = (find language lines).inBytes lines := by
  rw [Scan.inBytes, Scan.inBytes]
  cases hnotice : (find language lines).notice with
  | none => rfl
  | some notice =>
      have hline : notice.line < lines.length := (wellFormed_of_find hnotice).line_lt
      rw [Option.map_some, Option.map_some, Notice.inBytes, Notice.inBytes,
        List.getElem?_append_left hline]

/-- **What stands behind the first line of code is without effect.**  Where the scan of a header
stops at the last of some lines, no lines behind it change the segments, the notice that is found,
on characters and in bytes, or what is remarked on. -/
theorem find_behind_code (h : StopsAt language (front ++ [code]) front.length) (tail : List Text) :
    Header.segments language (front ++ [code] ++ tail)
        = Header.segments language (front ++ [code])
      ∧ find language (front ++ [code] ++ tail) = find language (front ++ [code])
      ∧ (find language (front ++ [code] ++ tail)).inBytes (front ++ [code] ++ tail)
        = (find language (front ++ [code])).inBytes (front ++ [code]) := by
  have hsegments := Header.segments_append_of_stopsAt h tail
  have hfind := find_append hsegments
  refine ⟨hsegments, hfind, ?_⟩
  rw [hfind, inBytes_find_append]

/-- Behind a shebang, a pragma and a closed docstring with a malformed notice, the comment in front
of the first line of code has the notice; a docstring that is opened later and never closed, and
another notice in it, change nothing. -/
theorem find_behind_code_script :
    let front : List Text := ["#!/usr/bin/python", "# coding: utf-8", "\"\"\"Tools.",
      "Copyright 2024 - 2020 Ada", "\"\"\"", "", "# Copyright 2019 Ada"]
    let code : Text := "import os"
    let tail : List Text := ["\"\"\"", "# Copyright 2021 Grace"]
    StopsAt Language.python (front ++ [code]) front.length
      ∧ find Language.python (front ++ [code] ++ tail)
        = ⟨some ⟨"Ada", 2019, none, 6, ⟨6, 7⟩, Marker.line, ⟨12, 16⟩⟩, [⟨4, 2024, 2020⟩]⟩ := by
  intro front code tail
  have hstop : StopsAt Language.python (front ++ [code]) front.length := by
    have hdocstring : Header.segmentAt? Language.python false (trim "\"\"\"Tools.")
        ((front ++ [code]).drop 3) = some (Marker.docstring, 3) := by decide
    have hcomment : Header.segmentAt? Language.python true (trim "# Copyright 2019 Ada")
        ((front ++ [code]).drop 7) = some (Marker.line, 1) := by decide
    have h₁ : Header.Reaches Language.python (front ++ [code]) false 1 := .start
    have h₂ : Header.Reaches Language.python (front ++ [code]) false 2 :=
      h₁.passed rfl (by decide)
    have h₃ : Header.Reaches Language.python (front ++ [code]) true 5 :=
      h₂.opening rfl (by decide) hdocstring
    have h₄ : Header.Reaches Language.python (front ++ [code]) true 6 :=
      h₃.passed rfl (by decide)
    have h₅ : Header.Reaches Language.python (front ++ [code]) true 7 :=
      h₄.opening rfl (by decide) hcomment
    exact ⟨true, code, h₅, rfl, by decide, by decide⟩
  refine ⟨hstop, ?_⟩
  rw [(find_behind_code hstop tail).2.1]
  decide +kernel

end Notice

end GitHooks
