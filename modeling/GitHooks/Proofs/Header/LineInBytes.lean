/-
**The text of a comment line, in bytes.**

The text of a comment line is found by offsets that are added up along the line: the indentation,
the marker that opens it, stars or the mark of a documentation comment behind it, and from the end
the white space and the marker that closes it.  Counted in bytes, each sum is a position at which
the line is cut.  What is added up each time are the bytes of a piece that comes next, so every cut
is between two characters, and the text and its position are the ones found on characters.

A line that ends before it begins is the case to look at: in a blank line within a block the text
begins behind the white space and ends in front of it, and so it is taken to be empty.

Main definitions:

* `InBytes.openingEnd`, `InBytes.closingStart` — where the text of a line begins and ends;
* `InBytes.commentText` — the text of a comment line and the byte that it begins at.

Main results:

* `InBytes.openingEnd_eq`, `InBytes.closingStart_eq` — both are between two characters;
* `InBytes.commentText_eq` — the text of a comment line is the same.
-/

import GitHooks.Proofs.Header.InBytes
import GitHooks.Proofs.Header.YearLines

set_option relaxedAutoImplicit false
set_option autoImplicit false

namespace GitHooks

namespace Text

variable {blank : Text}

/-- A run of other characters than white space ends where the text does. -/
theorem takeWhile_append_blank {p : Char → Bool} (hp : ∀ c, isSpace c = true → p c = false)
    (hblank : isBlank blank = true) (t : Text) : (t ++ blank).takeWhile p = t.takeWhile p := by
  cases blank with
  | nil => rw [List.append_nil]
  | cons c blank =>
      exact takeWhile_append_cons (hp c ((List.all_eq_true.1 hblank) c List.mem_cons_self)) t blank

end Text

namespace InBytes

open Text
open Header

variable {first : Bool} {line core front back : Text} {comments : CommentStyle} {marker : Marker}

/-! ### Cuts of a line -/

/-- The byte behind what opens a line comment, for the byte that the comment begins at. -/
def lineOpeningEnd (opening line : Text) (start : Nat) : Except Misstep Nat := do
  let rest ← dropBytes start line
  if startsWith rest opening then
    let start := start + byteLength opening
    if opening = "//" then
      let rest ← dropBytes start line
      if startsWith rest "!" || startsWith rest "/" then return start + 1 else return start
    else return start
  else return start

/-- The byte behind what opens a line of a block comment. -/
def blockOpeningEnd (opening : Text) (first : Bool) (line : Text) (start : Nat) :
    Except Misstep Nat := do
  let start := if first then start + byteLength opening else start
  let rest ← dropBytes start line
  if startsWith rest "*/" then return start
  else
    let stars ← difference (byteLength rest) (byteLength (rest.dropWhile (· == '*')))
    return start + stars

/-- The byte behind what opens a line of a docstring. -/
def docstringOpeningEnd (first : Bool) (line : Text) (start : Nat) : Nat :=
  if first then start + ((docstringQuote? line).map byteLength).getD 0 else start

/-- The byte behind what opens a line under a marker. -/
def openingEnd (comments : CommentStyle) (marker : Marker) (first : Bool) (line : Text)
    (start : Nat) : Except Misstep Nat :=
  match marker, comments with
  | Marker.line, CommentStyle.line opening => lineOpeningEnd opening line start
  | Marker.line, CommentStyle.block _ _ => return start
  | Marker.block, CommentStyle.line _ => blockOpeningEnd [] first line start
  | Marker.block, CommentStyle.block opening _ => blockOpeningEnd opening first line start
  | Marker.docstring, _ => return docstringOpeningEnd first line start

/-- The byte that the closing marker of a line begins at, for the bytes that its text begins at and
that its white space begins at. -/
def closingStart (closings : List Text) (line : Text) (start stop : Nat) : Except Misstep Nat :=
  if start ≤ stop then do
    let text ← sliceBytes ⟨start, stop⟩ line
    match closings.find? (endsWith text) with
    | some closing => difference stop (byteLength closing)
    | none => return stop
  else return stop

/-- The text of a comment line without its markers, and the byte that it begins at. -/
def commentText (comments : CommentStyle) (marker : Marker) (first : Bool) (line : Text) :
    Except Misstep (Nat × Text) := do
  let start ← difference (byteLength line) (byteLength (trimStart line))
  let start ← openingEnd comments marker first line start
  let stop ← closingStart (closings comments marker) line start (byteLength (trimEnd line))
  let text ← sliceBytes ⟨start, max stop start⟩ line
  return (start, text)

/-- Behind characters of a piece of a line comes the rest of the piece. -/
theorem dropBytes_take (front core back : Text) (n : Nat) :
    dropBytes (byteLength (front ++ core.take n)) (front ++ core ++ back)
      = Except.ok (core.drop n ++ back) := by
  have hline : front ++ core ++ back = (front ++ core.take n) ++ (core.drop n ++ back) := by
    rw [List.append_assoc, List.append_assoc, ← List.append_assoc (core.take n),
      List.take_append_drop]
  rw [hline, dropBytes_append]

/-- What comes first takes its bytes. -/
theorem byteLength_take {piece : Text} (h : startsWith core piece = true) (front : Text) :
    piece.length ≤ core.length
      ∧ byteLength front + byteLength piece = byteLength (front ++ core.take piece.length) := by
  have hstarts := startsWith_iff.1 h
  rw [← List.prefix_iff_eq_take.1 hstarts, byteLength_append]
  exact ⟨hstarts.length_le, rfl⟩

/-- What comes next takes its bytes. -/
theorem byteLength_take_add {piece : Text} {n : Nat} (hn : n ≤ core.length)
    (h : startsWith (core.drop n) piece = true) (front : Text) :
    n + piece.length ≤ core.length
      ∧ byteLength (front ++ core.take n) + byteLength piece
        = byteLength (front ++ core.take (n + piece.length)) := by
  obtain ⟨hle, hbytes⟩ := byteLength_take h (front ++ core.take n)
  rw [List.length_drop] at hle
  rw [hbytes, List.append_assoc, ← List.take_add]
  exact ⟨by omega, rfl⟩

/-! ### Where the text of a line begins -/

theorem startsWith_trim {piece : Text} (hsolid : ∀ c ∈ piece, isSpace c = false) (line : Text) :
    startsWith (trimStart (trim line)) piece = startsWith (trimStart line) piece := by
  rw [trimStart_trim, trim, startsWith_trimEnd hsolid]

/-- The quote of a docstring is in what trimming leaves of its first line. -/
theorem docstringQuote?_trim (line : Text) :
    docstringQuote? (trim line) = docstringQuote? line := by
  have hquote : ∀ quote ∈ docstringQuotes,
      startsWith (trimStart (trim line)) quote = startsWith (trimStart line) quote :=
    fun quote hq => startsWith_trim (plainMark_of_mem_docstringQuotes hq).solid line
  rw [docstringQuotes, List.forall_mem_cons, List.forall_mem_singleton] at hquote
  simp only [docstringQuote?, docstringQuotes, List.find?_cons, List.find?_nil, hquote.1, hquote.2]

theorem docstringOpeningEnd_eq (first : Bool) (front line : Text) :
    docstringOpeningLength first (trim line) ≤ (trim line).length
      ∧ docstringOpeningEnd first line (byteLength front)
        = byteLength (front ++ (trim line).take (docstringOpeningLength first (trim line))) := by
  have hnone : byteLength front = byteLength (front ++ (trim line).take 0) := by
    rw [List.take_zero, List.append_nil]
  rw [docstringOpeningLength, docstringOpeningEnd, docstringQuote?_trim]
  cases first with
  | false => exact ⟨Nat.zero_le _, hnone⟩
  | true =>
      cases hq : docstringQuote? line with
      | none => exact ⟨Nat.zero_le _, hnone⟩
      | some quote =>
          have hsolid := (plainMark_of_mem_docstringQuotes (List.mem_of_find?_eq_some hq)).solid
          have hstart : startsWith (trimStart line) quote = true := List.find?_some hq
          rw [← startsWith_trim hsolid, trimStart_trim] at hstart
          exact byteLength_take hstart front

section Opening

variable (hback : isBlank back = true)

include hback

theorem lineOpeningEnd_eq {opening : Text} (hsolid : ∀ c ∈ opening, isSpace c = false)
    (front core : Text) :
    lineOpeningLength opening core ≤ core.length
      ∧ lineOpeningEnd opening (front ++ core ++ back) (byteLength front)
        = Except.ok (byteLength (front ++ core.take (lineOpeningLength opening core))) := by
  have hdrop : dropBytes (byteLength front) (front ++ core ++ back) = Except.ok (core ++ back) := by
    rw [List.append_assoc, dropBytes_append]
  rw [lineOpeningEnd, lineOpeningLength, hdrop]
  change _ ∧ (if startsWith (core ++ back) opening then _ else _) = _
  rw [startsWith_append_blank hsolid hback]
  split
  · next hstart =>
    obtain ⟨hle, hbytes⟩ := byteLength_take hstart front
    rw [hbytes]
    by_cases hslashes : opening = "//"
    · rw [if_pos hslashes, dropBytes_take]
      change _ ∧ (if (startsWith (core.drop opening.length ++ back) "!"
        || startsWith (core.drop opening.length ++ back) "/") = true then _ else _) = _
      rw [startsWith_append_blank (solid_of_all rfl) hback,
        startsWith_append_blank (solid_of_all rfl) hback]
      by_cases hdoc : startsWith (core.drop opening.length) "!" = true
          ∨ startsWith (core.drop opening.length) "/" = true
      · obtain ⟨hlonger, hbehind⟩ : opening.length + 1 ≤ core.length
            ∧ byteLength (front ++ core.take opening.length) + 1
              = byteLength (front ++ core.take (opening.length + 1)) := by
          rcases hdoc with hdoc | hdoc
          · exact byteLength_take_add hle hdoc front
          · exact byteLength_take_add hle hdoc front
        rw [if_pos (Bool.or_eq_true_iff.2 hdoc), if_pos ⟨hslashes, hdoc⟩, hbehind]
        exact ⟨hlonger, rfl⟩
      · rw [if_neg (fun h => hdoc (Bool.or_eq_true_iff.1 h)), if_neg (fun h => hdoc h.2)]
        exact ⟨hle, rfl⟩
    · rw [if_neg hslashes, if_neg (fun h => hslashes h.1)]
      exact ⟨hle, rfl⟩
  · rw [List.take_zero, List.append_nil]
    exact ⟨Nat.zero_le _, rfl⟩

theorem blockOpeningEnd_eq {opening : Text} (front : Text)
    (hopening : first = true → startsWith core opening = true) :
    blockOpeningLength opening first core ≤ core.length
      ∧ blockOpeningEnd opening first (front ++ core ++ back) (byteLength front)
        = Except.ok (byteLength (front ++ core.take (blockOpeningLength opening first core))) := by
  -- the text behind the opening marker, if this is the first line
  obtain ⟨n, hn⟩ : ∃ n, (if first then opening.length else 0) = n := ⟨_, rfl⟩
  have hmarker : n ≤ core.length
      ∧ (if first then byteLength front + byteLength opening else byteLength front)
        = byteLength (front ++ core.take n) := by
    subst hn
    cases first with
    | false =>
        refine ⟨Nat.zero_le _, ?_⟩
        change byteLength front = byteLength (front ++ core.take 0)
        rw [List.take_zero, List.append_nil]
    | true => exact byteLength_take (hopening rfl) front
  obtain ⟨hle, hstart⟩ := hmarker
  rw [blockOpeningEnd, blockOpeningLength, hn, hstart, dropBytes_take]
  change _ ∧ (if startsWith (core.drop n ++ back) "*/" then _ else _) = _
  rw [startsWith_append_blank (solid_of_all rfl) hback]
  split
  · exact ⟨hle, rfl⟩
  · have hstar : ∀ c, isSpace c = true → (c == '*') = false := by
      intro c hspace
      rw [beq_eq_false_iff_ne]
      rintro rfl
      exact absurd hspace (by decide)
    obtain ⟨hlonger, hstars⟩ := byteLength_take_add hle
      (startsWith_iff.2 (List.takeWhile_prefix (· == '*') (l := core.drop n))) front
    have hrest : (core.drop n ++ back).takeWhile (· == '*') = (core.drop n).takeWhile (· == '*') :=
      takeWhile_append_blank hstar hback _
    have hbytes : byteLength (core.drop n ++ back)
        = byteLength ((core.drop n ++ back).dropWhile (· == '*'))
          + byteLength ((core.drop n).takeWhile (· == '*')) := by
      rw [Nat.add_comm, ← hrest, ← byteLength_append, List.takeWhile_append_dropWhile]
    rw [hbytes, difference_add]
    exact ⟨hlonger, congrArg Except.ok hstars⟩

/-- What opens a line ends behind a character of what trimming leaves of it. -/
theorem openingEnd_eq (hsolid : ∀ c ∈ comments.leading, isSpace c = false)
    (hopens : first = true → marker = Marker.block →
      startsWith (trim line) comments.leading = true)
    (hline : line = front ++ trim line ++ back) :
    openingLength comments marker first (trim line) ≤ (trim line).length
      ∧ openingEnd comments marker first line (byteLength front)
        = Except.ok (byteLength
          (front ++ (trim line).take (openingLength comments marker first (trim line)))) := by
  have hempty : first = true → startsWith (trim line) [] = true := fun _ => rfl
  have hnone : byteLength front = byteLength (front ++ (trim line).take 0) := by
    rw [List.take_zero, List.append_nil]
  cases marker with
  | line =>
      cases comments with
      | line opening =>
          have hend := lineOpeningEnd_eq hback hsolid front (trim line)
          rwa [← hline] at hend
      | block opening closing => exact ⟨Nat.zero_le _, congrArg Except.ok hnone⟩
  | block =>
      cases comments with
      | line opening =>
          have hend := blockOpeningEnd_eq hback front hempty
          rwa [← hline] at hend
      | block opening closing =>
          have hend := blockOpeningEnd_eq hback front fun hfirst => hopens hfirst rfl
          rwa [← hline] at hend
  | docstring =>
      obtain ⟨hle, hend⟩ := docstringOpeningEnd_eq first front line
      exact ⟨hle, congrArg Except.ok hend⟩

end Opening

/-! ### Where it ends -/

/-- What closes a line begins behind a character of its text. -/
theorem closingStart_eq (closings : List Text) (lead t back : Text) :
    closingStart closings (lead ++ t ++ back) (byteLength lead) (byteLength (lead ++ t))
      = Except.ok (byteLength (lead ++ dropClosing closings t)) := by
  have hle : byteLength lead ≤ byteLength (lead ++ t) := by
    rw [byteLength_append]
    exact Nat.le_add_right _ _
  rw [closingStart, if_pos hle, sliceBytes_append, dropClosing]
  change (match closings.find? (endsWith t) with
    | some closing => difference (byteLength (lead ++ t)) (byteLength closing)
    | none => Except.ok (byteLength (lead ++ t))) = _
  cases hfind : closings.find? (endsWith t) with
  | none => rfl
  | some closing =>
      obtain ⟨text, rfl⟩ := endsWith_iff.1 (List.find?_some hfind)
      have hbytes : byteLength (lead ++ (text ++ closing))
          = byteLength closing + byteLength (lead ++ text) := by
        rw [← List.append_assoc, byteLength_append, Nat.add_comm]
      simp only [hbytes, difference_add, List.length_append, Nat.add_sub_cancel, List.take_left]

/-- The white space of a line: in front of what trimming leaves of it, and behind. -/
theorem exists_around_trim (line : Text) : ∃ front back, isBlank back = true
    ∧ line = front ++ trim line ++ back ∧ front.length = indentation line
    ∧ byteLength line = byteLength (trimStart line) + byteLength front
    ∧ trimEnd line = if trim line = [] then [] else front ++ trim line := by
  obtain ⟨back, hback, hstart⟩ := exists_trimEnd_append (trimStart line)
  have hsplit : line = line.takeWhile isSpace ++ trimStart line :=
    List.takeWhile_append_dropWhile.symm
  have hline : line = line.takeWhile isSpace ++ trim line ++ back := by
    rw [List.append_assoc, trim, ← hstart, ← hsplit]
  refine ⟨line.takeWhile isSpace, back, hback, hline, rfl, ?_, ?_⟩
  · rw [Nat.add_comm, ← byteLength_append, ← hsplit]
  · split
    · next hnil =>
      exact trimEnd_eq_nil_iff.2 (isBlank_iff_trim_eq_nil.2 hnil)
    · next hne =>
      obtain ⟨-, u, d, hd, hsolid⟩ := ends_of_trim_eq (trim_trim line) hne
      have htight : trimEnd (line.takeWhile isSpace ++ trim line)
          = line.takeWhile isSpace ++ trim line := by
        rw [hd, ← List.append_assoc, trimEnd_concat hsolid]
      conv => lhs; rw [hline, trimEnd_append_of_isBlank hback, htight]

/-- The end of the text of a line: in front of its closing marker and of the white space behind it,
or where the text begins, if there is nothing but white space. -/
theorem exists_closingStart (closings : List Text) {lead t : Text}
    (hline : line = lead ++ t ++ back)
    (hstop : trimEnd line = lead ++ t ∨ trimEnd line = [] ∧ t = []) :
    ∃ stop,
      closingStart closings line (byteLength lead) (byteLength (trimEnd line)) = Except.ok stop
      ∧ max stop (byteLength lead) = byteLength (lead ++ dropClosing closings t) := by
  have hle : ∀ u, byteLength lead ≤ byteLength (lead ++ u) := by
    intro u
    rw [byteLength_append]
    exact Nat.le_add_right _ _
  have hwhole : byteLength (trimEnd line) = byteLength (lead ++ t) →
      ∃ stop, closingStart closings line (byteLength lead) (byteLength (trimEnd line))
          = Except.ok stop
        ∧ max stop (byteLength lead) = byteLength (lead ++ dropClosing closings t) := by
    intro hbytes
    refine ⟨_, ?_, Nat.max_eq_left (hle _)⟩
    rw [hbytes, hline, closingStart_eq]
  rcases hstop with hstop | ⟨hstop, rfl⟩
  · exact hwhole (congrArg byteLength hstop)
  · have hnil : dropClosing closings [] = [] := by
      obtain ⟨rest, hrest⟩ := exists_dropClosing_append closings []
      exact (List.append_eq_nil_iff.1 hrest.symm).1
    by_cases hlead : byteLength lead ≤ 0
    · refine hwhole ?_
      rw [hstop, List.append_nil, byteLength_nil]
      exact (Nat.le_zero.1 hlead).symm
    · refine ⟨0, ?_, ?_⟩
      · rw [hstop, byteLength_nil, closingStart, if_neg hlead]
        rfl
      · rw [hnil, List.append_nil]
        exact Nat.max_eq_right (Nat.zero_le _)

/-- **The text of a comment line** is cut out between two characters, and its position in bytes is
the one of its first character. -/
theorem commentText_eq (hsolid : ∀ c ∈ comments.leading, isSpace c = false)
    (hopens : first = true → marker = Marker.block →
      startsWith (trim line) comments.leading = true) :
    commentText comments marker first line
      = Except.ok (byteLength (line.take (Header.commentText comments marker first line).1),
        (Header.commentText comments marker first line).2) := by
  obtain ⟨front, back, hback, hline, hindent, hbytes, hstop⟩ := exists_around_trim line
  obtain ⟨hle, hend⟩ := openingEnd_eq hback hsolid hopens hline
  rw [commentText, Header.commentText, hbytes, difference_add]
  change (openingEnd comments marker first line (byteLength front)).bind _ = _
  rw [hend]
  generalize openingLength comments marker first (trim line) = n at hle ⊢
  generalize closings comments marker = closings
  have htake : line.take (indentation line + n) = front ++ (trim line).take n := by
    rw [← hindent]
    conv => lhs; rw [hline]
    rw [List.append_assoc, List.take_length_add_append, List.take_append_of_le_length hle]
  have hjoin : front ++ (trim line).take n ++ (trim line).drop n = front ++ trim line := by
    rw [List.append_assoc, List.take_append_drop]
  rw [htake]
  -- the line in front of its text, and the text up to the white space behind it
  generalize hlead : front ++ (trim line).take n = lead at *
  have hparts : line = lead ++ (trim line).drop n ++ back := by
    rw [hjoin]
    exact hline
  obtain ⟨stop, hclosing, hmax⟩ := exists_closingStart closings hparts (by
    split at hstop
    · next hnil =>
      exact Or.inr ⟨hstop, by rw [hnil, List.drop_nil]⟩
    · exact Or.inl (hstop.trans hjoin.symm))
  obtain ⟨rest, hrest⟩ := exists_dropClosing_append closings ((trim line).drop n)
  have hslice : sliceBytes ⟨byteLength lead, max stop (byteLength lead)⟩ line
      = Except.ok (dropClosing closings ((trim line).drop n)) := by
    refine sliceBytes_eq_ok_iff.2 ⟨lead, rest ++ back, ?_, ?_⟩
    · rw [List.append_assoc, ← List.append_assoc _ rest, ← hrest, ← List.append_assoc]
      exact hparts
    · rw [hmax, byteLength_append]
  change (closingStart closings line (byteLength lead) (byteLength (trimEnd line))).bind _ = _
  rw [hclosing]
  change (sliceBytes ⟨byteLength lead, max stop (byteLength lead)⟩ line).bind _ = _
  rw [hslice]
  rfl

end InBytes

end GitHooks
