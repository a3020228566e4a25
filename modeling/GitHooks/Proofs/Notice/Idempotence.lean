/-
**Adding a notice once.**

A file to which a notice has been added is left alone when the notice is found again, and whether
it is found does not depend on the file: what is added is scanned as if the file began with it,
and what stands behind it cannot take it away.  So adding is idempotent on every file exactly when
the notice is found in the smallest files that take it in different ways.

Main definitions:

* `Notice.Settles` — adding to a file and adding once more do the same.

Main results:

* `Notice.isSome_find_behind` — a notice that is found in some lines is found behind a preamble,
  whatever follows;
* `Notice.add_settles_iff` — adding is idempotent exactly when the notice is found again in the
  smallest files.
-/

import GitHooks.Proofs.Notice.Insert
import GitHooks.Proofs.Settings.Formats

set_option relaxedAutoImplicit false
set_option autoImplicit false

namespace GitHooks

namespace Notice

open Text
open Header

variable {language : Language} {lines lines' tail : List Text} {settings : NoticeSettings}
  {year : Int}

/-! ### A notice further down -/

/-- Whether a line is read as a notice depends on its marker and on whether it is the first of its
segment. -/
theorem exists_readLine {comments : CommentStyle} {segment segment' : Segment} {line : Text}
    {index index' : Nat} {notice : Notice}
    (h : readLine comments segment line index = Except.ok (some notice))
    (hm : segment'.marker = segment.marker)
    (hf : (index' == segment'.lines.start) = (index == segment.lines.start)) :
    ∃ notice', readLine comments segment' line index' = Except.ok (some notice') := by
  obtain ⟨offset, text, statement, ht, hst, hy, -⟩ := readLine_eq_some_iff.1 h
  exact ⟨_, readLine_eq_some_iff.2 ⟨offset, text, statement, by rw [hm, hf, ht], hst, hy, rfl⟩⟩

/-- A notice is found where the segments around it are found, further down and perhaps longer. -/
theorem isSome_find_of_longer {offset : Nat}
    (hs : ∀ segment ∈ segments language lines, ∃ longer ∈ segments language lines',
      longer.marker = segment.marker ∧ longer.lines.start = offset + segment.lines.start
        ∧ offset + segment.lines.stop ≤ longer.lines.stop)
    (hl : ∀ i line, lines[i]? = some line → lines'[offset + i]? = some line)
    (h : (find language lines).notice.isSome = true) :
    (find language lines').notice.isSome = true := by
  obtain ⟨visit, hv, notice, hn⟩ := isSome_find_iff.1 h
  obtain ⟨hm, hstart, hstop, hget⟩ := mem_visits_iff.1 hv
  obtain ⟨longer, hlonger, hmarker, hfirst, hlast⟩ := hs _ hm
  have hf : (offset + visit.index == longer.lines.start)
      = (visit.index == visit.segment.lines.start) := by
    rw [hfirst, Bool.eq_iff_iff, beq_iff_eq, beq_iff_eq]
    omega
  obtain ⟨notice', hn'⟩ := exists_readLine hn hmarker hf
  refine isSome_find_iff.2 ⟨⟨longer, visit.line, offset + visit.index⟩, ?_, notice', hn'⟩
  exact mem_visits_iff.2 ⟨hlonger, by dsimp only; omega, by dsimp only; omega, hl _ _ hget⟩

/-- A shebang that does not come first in its file is a comment, where comments begin with a hash
sign. -/
theorem mem_segmentsFrom_cons {head : Text} {following : List Text} {index : Nat}
    {segment : Segment} (hc : language.comments = CommentStyle.hash) (hs : isShebang head = true)
    (h : segment ∈ segmentsFrom language false (index + 1) following) :
    segment ∈ segmentsFrom language false index (head :: following) := by
  obtain ⟨u, hu⟩ := startsWith_iff.1 hs
  cases hp : isPassed head with
  | true => rwa [segmentsFrom_of_isPassed hp]
  | false =>
      have htrim : startsWith (trim head) "#" = true := by
        have hhead : head = ['#'] ++ '!' :: u := hu.symm
        rw [hhead, trim_append_cons (by decide)]
        rfl
      have hopen : segmentAt? language false (trim head) following = some (Marker.line, 1) := by
        rw [segmentAt?, hc]
        simp only [commentAt?, CommentStyle.hash, htrim]
        rfl
      rw [segmentsFrom_of_opening hp hopen]
      exact List.mem_cons_of_mem _ h

/-- The segments of some lines are found behind a preamble, whatever follows them. -/
theorem segments_behind
    (hs : beginsWithShebang tail = true → language.comments = CommentStyle.hash)
    (lines more : List Text) :
    ∀ segment ∈ segments language tail,
      ∃ longer ∈ segments language (preambleOf lines ++ (tail ++ more)),
        longer.marker = segment.marker
          ∧ longer.lines.start = (preambleOf lines).length + segment.lines.start
          ∧ (preambleOf lines).length + segment.lines.stop ≤ longer.lines.stop := by
  intro segment hm
  cases tail with
  | nil => simp [segments] at hm
  | cons head rest =>
      -- the same lines scanned from further down
      have hshift : ∀ index scanned, segment ∈ segmentsFrom language false index scanned →
          ∃ longer ∈ segmentsFrom language false ((preambleOf lines).length + index)
              (scanned ++ more),
            longer.marker = segment.marker
              ∧ longer.lines.start = (preambleOf lines).length + segment.lines.start
              ∧ (preambleOf lines).length + segment.lines.stop ≤ longer.lines.stop := by
        intro index scanned hm
        refine segmentsFrom_append_of_mem language false _ scanned more
          (segment.shift (preambleOf lines).length) ?_
        rw [segmentsFrom_shift]
        exact List.mem_map_of_mem hm
      cases hb : isShebang head with
      | false =>
          have hm : segment ∈ segmentsFrom language false 0 (head :: rest) := by
            simpa [segments, beginsWithShebang, hb] using hm
          have hb' : beginsWithShebang (head :: rest ++ more) = false := hb
          rw [segments_preambleOf language fun _ => hb']
          exact hshift 0 _ hm
      | true =>
          have hm : segment ∈ segmentsFrom language false 1 rest := by
            simpa [segments, beginsWithShebang, hb] using hm
          obtain ⟨longer, hlonger, hspec⟩ := hshift 1 rest hm
          refine ⟨longer, ?_, hspec⟩
          by_cases hp : preambleLength lines = 0
          · rw [preambleOf_of_eq_zero hp, List.length_nil, Nat.zero_add] at hlonger
            simpa [preambleOf_of_eq_zero hp, segments, beginsWithShebang, hb] using hlonger
          · -- behind a preamble the shebang is a comment, a segment in front of the others
            rw [segments_preambleOf language fun h => absurd h hp]
            exact mem_segmentsFrom_cons (hs hb) hb hlonger

/-- **A notice that is found in some lines is found behind a preamble**, whatever follows. -/
theorem isSome_find_behind
    (hs : beginsWithShebang tail = true → language.comments = CommentStyle.hash)
    (h : (find language tail).notice.isSome = true) (lines more : List Text) :
    (find language (preambleOf lines ++ (tail ++ more))).notice.isSome = true := by
  refine isSome_find_of_longer (segments_behind hs lines more) (fun i line hi => ?_) h
  rw [List.getElem?_append_right (Nat.le_add_right _ _), Nat.add_sub_cancel_left,
    List.getElem?_append_left (List.getElem?_eq_some_iff.1 hi).1]
  exact hi

/-! ### What is added -/

/-- A line in the markers of a comment begins with the opening marker. -/
theorem startsWith_wrapLine {comments : CommentStyle} (hm : PlainMark comments.leading)
    (line : Text) : startsWith (trimStart (wrapLine comments line)) comments.leading = true := by
  obtain ⟨v, d, hv, hd⟩ := hm.endsTight
  have hlead : startsWith (trimStart (withLeading comments.leading line)) comments.leading
      = true := by
    rw [withLeading]
    split
    · next h => exact h
    · have hend : trimEnd (comments.leading ++ " " ++ line)
          = comments.leading ++ trimEnd (" " ++ line) := by
        rw [hv, List.append_assoc, List.append_assoc, List.append_assoc, List.singleton_append,
          trimEnd_append_cons hd, List.singleton_append]
      rw [hend, trimStart_marked hm]
      exact startsWith_iff.2 (List.prefix_append _ _)
  rw [wrapLine]
  cases comments.trailing? with
  | none => exact hlead
  | some trailing =>
      rw [withTrailing]
      split
      · exact hlead
      · have hnil : trimStart (withLeading comments.leading line) ≠ [] := by
          intro hnil
          rw [hnil, startsWith_iff, List.prefix_nil] at hlead
          exact hm.ne_nil hlead
        rw [List.append_assoc, trimStart_append hnil, startsWith_iff]
        exact (startsWith_iff.1 hlead).trans (List.prefix_append _ _)

/-- Of the known comments only those behind a hash sign can be a shebang. -/
theorem comments_of_leading (hl : language ∈ Language.all) {line : Text}
    (hs : isShebang line = true)
    (h : startsWith (trimStart line) language.comments.leading = true) :
    language.comments = CommentStyle.hash := by
  have hall : ∀ language ∈ Language.all,
      (startsWith "#!" language.comments.leading || startsWith language.comments.leading "#!")
        = true → language.comments = CommentStyle.hash := by decide
  refine hall language hl ?_
  obtain ⟨u, rfl⟩ := startsWith_iff.1 hs
  have htrim : trimStart ("#!" ++ u) = "#!" ++ u := trimStart_cons (c := '#') (by decide) _
  rw [htrim, startsWith_iff] at h
  rw [Bool.or_eq_true, startsWith_iff, startsWith_iff]
  exact List.prefix_or_prefix_of_prefix h (List.prefix_append _ _)

theorem beginsWithShebang_docstringLines (notice : List Text) {seed : List Text}
    (hs : seed ∈ seeds) : beginsWithShebang (docstringLines notice seed) = false := by
  have hquote : ∀ quote ∈ docstringQuotes, ∀ text rest,
      beginsWithShebang (Text.lines (quote ++ text) ++ rest) = false := by
    intro quote hq text rest
    obtain ⟨c, q, rfl, hn, hr, hh⟩ : ∃ c q, quote = c :: q ∧ c ≠ '\n' ∧ c ≠ '\r' ∧ c ≠ '#' := by
      simp only [docstringQuotes, List.mem_cons, List.not_mem_nil, or_false] at hq
      rcases hq with rfl | rfl
      · exact ⟨'"', ['"', '"'], rfl, by decide⟩
      · exact ⟨'\'', ['\'', '\''], rfl, by decide⟩
    obtain ⟨u, lines, hlines⟩ := exists_lines_cons hn hr (q ++ text)
    rw [List.cons_append, hlines]
    simp [beginsWithShebang, isShebang, startsWith, List.isPrefixOf, Ne.symm hh]
  rw [seeds, List.mem_cons, List.mem_map] at hs
  rcases hs with rfl | ⟨quote, hq, rfl⟩
  · rw [docstringLines_nil, List.append_assoc, ← List.append_nil (Text.lines _)]
    exact hquote _ (List.mem_cons_self ..) _ _
  · rw [docstringLines_quote hq]
    exact hquote _ hq _ _

/-- The lines that are added to one of the smallest files begin with a shebang only where comments
begin with a hash sign. -/
theorem comments_of_shebang (hl : language ∈ Language.all) {seed : List Text} (hs : seed ∈ seeds)
    (h : inserted settings language year seed = Except.ok tail)
    (hb : beginsWithShebang tail = true) : language.comments = CommentStyle.hash := by
  rw [inserted] at h
  split at h
  · cases hp : plainLines settings.name year none settings.format with
    | error fault => simp [hp, Except.map] at h
    | ok notice =>
        obtain rfl : docstringLines notice seed = tail := by simpa [hp, Except.map] using h
        rw [beginsWithShebang_docstringLines notice hs] at hb
        simp at hb
  · cases hp : plainLines settings.name year none settings.format with
    | error fault => simp [commentLines, hp, Except.map] at h
    | ok notice =>
        obtain rfl : notice.map (wrapLine language.comments) ++ separated seed = tail := by
          simpa [commentLines, hp, Except.map] using h
        cases notice with
        | nil =>
            cases seed <;> simp [separated, beginsWithShebang, isShebang, startsWith] at hb
        | cons line notice =>
            exact comments_of_leading hl hb (startsWith_wrapLine (plainMark_of_mem hl) line)

/-- What is added to a file begins as what is added to one of the smallest ones. -/
theorem inserted_eq_append {body : List Text}
    (h : inserted settings language year body = Except.ok tail) :
    ∃ seed ∈ seeds, ∃ front more,
      inserted settings language year seed = Except.ok front ∧ tail = front ++ more := by
  rw [inserted] at h
  split at h
  · next hd =>
    cases hp : plainLines settings.name year none settings.format with
    | error fault => simp [hp, Except.map] at h
    | ok notice =>
        obtain rfl : docstringLines notice body = tail := by simpa [hp, Except.map] using h
        obtain ⟨seed, hs, more, hmore⟩ := docstringLines_eq_append body
        exact ⟨seed, hs, _, more, by rw [inserted, if_pos hd, hp]; rfl, hmore notice⟩
  · next hd =>
    cases hp : commentLines settings.name year none settings.format language.comments with
    | error fault => simp [hp, Except.map] at h
    | ok notice =>
        obtain rfl : notice ++ separated body = tail := by simpa [hp, Except.map] using h
        refine ⟨[], List.mem_cons_self .., notice, separated body, ?_, rfl⟩
        rw [inserted, if_neg hd, hp]
        exact congrArg Except.ok (List.append_nil notice)

/-! ### Adding once more -/

/-- A notice for `year` can be added to a file, and adding one again, in whatever year, changes
nothing. -/
def Settles (settings : NoticeSettings) (language : Language) (year : Int) (lines : List Text) :
    Prop :=
  ∃ edit, add lines settings language year = Except.ok edit
    ∧ ∀ later, ∃ again, add edit.lines settings language later = Except.ok again
      ∧ again.changed = false ∧ again.lines = edit.lines

/-- A notice for `year` can be added to a file and is found there. -/
def Recognised (settings : NoticeSettings) (language : Language) (year : Int)
    (lines : List Text) : Prop :=
  ∃ edit, add lines settings language year = Except.ok edit
    ∧ (find language edit.lines).notice.isSome = true

theorem add_of_isSome (h : (find language lines).notice.isSome = true) :
    add lines settings language year
      = Except.ok (Edit.unchanged lines (find language lines)) := by
  rw [add]
  exact if_pos h

theorem exists_inserted (hc : NoticeFormat.check settings.format = Except.ok ())
    (language : Language) (year : Int) (body : List Text) :
    ∃ tail, inserted settings language year body = Except.ok tail := by
  have hp : plainLines settings.name year none settings.format
      = Except.ok (Text.lines (fill settings.name (yearsText year none) settings.format)) := by
    rw [plainLines, hc]
    rfl
  rw [inserted, commentLines, hp]
  split <;> exact ⟨_, rfl⟩

/-- Adding again changes nothing exactly when the notice is found. -/
theorem settles_iff (hc : NoticeFormat.check settings.format = Except.ok ()) :
    Settles settings language year lines ↔ Recognised settings language year lines := by
  constructor
  · rintro ⟨edit, he, hagain⟩
    refine ⟨edit, he, ?_⟩
    obtain ⟨again, ha, hunchanged, -⟩ := hagain year
    cases hn : (find language edit.lines).notice with
    | some notice => rfl
    | none =>
        obtain ⟨tail, ht⟩ := exists_inserted hc language year
          (bodyOf (edit.lines.drop (preambleLength edit.lines)))
        rw [add_of_none hn ht] at ha
        obtain rfl := Except.ok.inj ha
        simp at hunchanged
  · rintro ⟨edit, he, hfind⟩
    exact ⟨edit, he, fun later => ⟨_, add_of_isSome hfind, rfl, rfl⟩⟩

theorem find_seed (hl : language ∈ Language.all) {seed : List Text} (hs : seed ∈ seeds) :
    (find language seed).notice = none ∧ preambleLength seed = 0 ∧ bodyOf seed = seed := by
  have hall : ∀ seed ∈ seeds, preambleLength seed = 0 ∧ bodyOf seed = seed := by decide
  have hfind : ∀ language ∈ Language.all, ∀ seed ∈ seeds,
      (find language seed).notice = none := by decide +kernel
  exact ⟨hfind language hl seed hs, hall seed hs⟩

/-- **What is recognised in the smallest files is recognised in every file.** -/
theorem recognised_of_seeds (hl : language ∈ Language.all)
    (hc : NoticeFormat.check settings.format = Except.ok ())
    (h : ∀ seed ∈ seeds, Recognised settings language year seed) (lines : List Text) :
    Recognised settings language year lines := by
  cases hn : (find language lines).notice with
  | some notice =>
      have hsome : (find language lines).notice.isSome = true := by rw [hn]; rfl
      exact ⟨_, add_of_isSome hsome, hsome⟩
  | none =>
      obtain ⟨tail, ht⟩ := exists_inserted hc language year
        (bodyOf (lines.drop (preambleLength lines)))
      obtain ⟨seed, hs, front, more, hfront, rfl⟩ := inserted_eq_append ht
      refine ⟨_, add_of_none hn ht, ?_⟩
      -- what is added to the seed is what the tail begins with
      obtain ⟨hnone, hpreamble, hbody⟩ := find_seed hl hs
      have hseed : add seed settings language year
          = Except.ok ⟨front, true, none, (find language seed).warnings⟩ := by
        have : add seed settings language year
            = Except.ok ⟨preambleOf seed ++ front, true, none, _⟩ :=
          add_of_none hnone (by rw [hpreamble, List.drop_zero, hbody, hfront])
        rwa [preambleOf_of_eq_zero hpreamble] at this
      obtain ⟨edit, he, hfind⟩ := h seed hs
      rw [hseed] at he
      obtain rfl := Except.ok.inj he
      exact isSome_find_behind (comments_of_shebang hl hs hfront) hfind lines more

/-- A plain name in the standard format is recognised in every file. -/
theorem recognised_standard (hl : language ∈ Language.all) {name : Text} (hN : PlainName name)
    (docstring : Bool) (h₁ : 1000 ≤ year) (h₂ : year ≤ 9999) (lines : List Text) :
    Recognised ⟨name, NoticeFormat.standard, docstring⟩ language year lines := by
  cases hn : (find language lines).notice with
  | some notice =>
      have hsome : (find language lines).notice.isSome = true := by rw [hn]; rfl
      exact ⟨_, add_of_isSome hsome, hsome⟩
  | none =>
      obtain ⟨head, more, marker, offset, front, back, hins, hf, hb, hopens⟩ :=
        inserted_standard hl hN docstring h₁ h₂ (bodyOf (lines.drop (preambleLength lines)))
      obtain ⟨stop, hfind⟩ := find_of_opensWith hopens
        (statement?_wording hN (isYear_ofInt h₁ h₂) hf hb) rfl lines more
      exact ⟨_, add_of_none hn hins, by rw [hfind]; rfl⟩

/-- **When adding is idempotent.**  With settings that have been accepted, adding a notice to a
file once more changes nothing, for every file, exactly when the notice is found again in the three
smallest files.  It always is for a plain name in the standard format. -/
theorem add_settles_iff {commandLine files : Settings.Layer} {identity : Option Text}
    {resolved : Settings.Resolved}
    (h : Settings.resolve commandLine files identity = Except.ok resolved)
    (hl : language ∈ Language.all) (year : Int) :
    ((∀ lines, Settles (resolved.forLanguage language) language year lines)
        ↔ ∀ seed ∈ seeds, Recognised (resolved.forLanguage language) language year seed)
      ∧ ((resolved.forLanguage language).format = NoticeFormat.standard →
        PlainName resolved.name → 1000 ≤ year → year ≤ 9999 →
        ∀ lines, Settles (resolved.forLanguage language) language year lines) := by
  have hc := Settings.check_forLanguage h language
  refine ⟨⟨fun hs seed _ => (settles_iff hc).1 (hs seed), fun hr lines => ?_⟩,
    fun hf hN h₁ h₂ lines => ?_⟩
  · exact (settles_iff hc).2 (recognised_of_seeds hl hc hr lines)
  · refine (settles_iff hc).2 ?_
    have := recognised_standard hl hN (resolved.forLanguage language).docstring h₁ h₂ lines
    rwa [← hf] at this

/-- The standard format with a plain name, in files of any content. -/
theorem add_settles_standard :
    Settings.resolve { Settings.Layer.empty with name := some "Ada" } Settings.Layer.empty none
        = Except.ok ⟨"Ada", NoticeFormat.standard, false, []⟩
      ∧ (∀ lines, Settles ⟨"Ada", NoticeFormat.standard, false⟩ Language.python 2024 lines)
      ∧ ∀ seed ∈ seeds,
          Recognised ⟨"Ada", NoticeFormat.standard, false⟩ Language.python 2024 seed := by
  have hr : Settings.resolve { Settings.Layer.empty with name := some "Ada" } Settings.Layer.empty
      none = Except.ok ⟨"Ada", NoticeFormat.standard, false, []⟩ := rfl
  obtain ⟨hiff, hplain⟩ := add_settles_iff hr (by decide : Language.python ∈ Language.all) 2024
  have hs := hplain rfl (by decide) (by decide) (by decide)
  exact ⟨hr, hs, hiff.1 hs⟩

/-- A format that passes its check need not be read as a notice: without signifiers, a notice is
added each time. -/
theorem not_add_idempotent :
    ¬ ∀ (commandLine files : Settings.Layer) (identity : Option Text)
        (resolved : Settings.Resolved),
        Settings.resolve commandLine files identity = Except.ok resolved →
        ∀ language ∈ Language.all, ∀ year later : Int, 1000 ≤ year → year ≤ 9999 →
        1000 ≤ later → later ≤ 9999 → ∀ (lines : List Text) (edit : Edit),
        add lines (resolved.forLanguage language) language year = Except.ok edit →
        ∃ again, add edit.lines (resolved.forLanguage language) language later = Except.ok again
          ∧ again.changed = false ∧ again.lines = edit.lines := by
  intro h
  have hempty : (find Language.python []).notice = none := by decide +kernel
  have hnotice : (find Language.python ["# 2024 Ada"]).notice = none := by decide +kernel
  obtain ⟨warnings, hedit⟩ : ∃ warnings,
      add [] ⟨"Ada", "\x7byear\x7d \x7bname\x7d", false⟩ Language.python 2024
        = Except.ok ⟨["# 2024 Ada"], true, none, warnings⟩ := ⟨_, add_of_none hempty rfl⟩
  obtain ⟨warnings', hagain⟩ : ∃ warnings,
      add ["# 2024 Ada"] ⟨"Ada", "\x7byear\x7d \x7bname\x7d", false⟩ Language.python 2025
        = Except.ok ⟨["# 2025 Ada", [], "# 2024 Ada"], true, none, warnings⟩ :=
    ⟨_, add_of_none hnotice rfl⟩
  obtain ⟨again, ha, hunchanged, -⟩ := h
    { Settings.Layer.empty with name := some "Ada", format := some "\x7byear\x7d \x7bname\x7d" }
    Settings.Layer.empty none ⟨"Ada", "\x7byear\x7d \x7bname\x7d", true, []⟩ rfl Language.python
    (by decide) 2024 2025 (by decide) (by decide) (by decide) (by decide) [] _ hedit
  obtain rfl := Except.ok.inj (hagain.symm.trans ha)
  simp at hunchanged

end Notice

end GitHooks
