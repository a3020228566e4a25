/-
**Templates taken apart at their slots.**

A name in braces cannot overlap another one, because there is no brace in a name.  So the names that
a search from left to right meets are all that occur in a text, and a text falls apart in one way
only into the names in braces and the texts between them.  A template is filled by putting the
pieces together again with values in place of the names: what a value looks like does not matter,
and the texts between are kept as they are.

Main definitions:

* `Template.HasBraced` — a name in braces occurs in a text;
* `Template.Cut`, `Template.Cut.IsCutOf` — a text taken apart at its slots;
* `Template.Cut.join` — the pieces put together, with values in place of the slots.

Main results:

* `Template.braced_induction` — induction along the names in braces of a text;
* `Template.mem_namesOf_tokens_iff` — the search meets the names that occur;
* `Template.parse_eq_ok_iff` — which texts are templates;
* `Template.parse_fill` — filling a template replaces its slots all at once.
-/

import GitHooks.Message.Template
import GitHooks.Proofs.Text.Affix
import GitHooks.Proofs.Text.Longest

set_option relaxedAutoImplicit false
set_option autoImplicit false

namespace GitHooks

open Text

namespace Template

variable {t u name other : Text} {template : Template}

/-! ### Names in braces -/

/-- A name in braces occurs in a text: an opening brace, text without braces, a closing brace. -/
structure HasBraced (t name : Text) : Prop where
  plain : ∀ c ∈ name, isBrace c = false
  occurs : inBraces name <:+: t

/-- No name in braces occurs in a text. -/
def IsLiteral (t : Text) : Prop := ∀ name, ¬ HasBraced t name

theorem bracedAt?_eq_some_iff :
    bracedAt? t = some name ↔ (∀ c ∈ name, isBrace c = false) ∧ inBraces name <+: t := by
  cases t with
  | nil =>
      constructor
      · intro h
        cases h
      · rintro ⟨-, h⟩
        exact absurd (List.prefix_nil.1 h) (List.cons_ne_nil _ _)
  | cons c t =>
      rw [bracedAt?]
      constructor
      · intro h
        split at h
        · next hbraces =>
          obtain ⟨rfl, hclose⟩ := hbraces
          obtain ⟨rest, hrest⟩ := List.head?_eq_some_iff.1 hclose
          have hname : t.takeWhile (fun d => !isBrace d) = name := Option.some.inj h
          have ht : name ++ '\x7d' :: rest = t := by
            rw [← hname, ← hrest, List.takeWhile_append_dropWhile]
          refine ⟨fun d hd => ?_, rest, ?_⟩
          · rw [← hname] at hd
            simpa using List.mem_takeWhile_imp hd
          · rw [inBraces, ← ht, List.cons_append, List.append_assoc]
            rfl
        · cases h
      · rintro ⟨hplain, rest, hrest⟩
        rw [inBraces, List.cons_append, List.append_assoc] at hrest
        obtain ⟨rfl, rfl⟩ := List.cons.inj hrest
        have hpos : ∀ d ∈ name, (!isBrace d) = true := fun d hd => by simp [hplain d hd]
        rw [List.takeWhile_append_of_pos hpos, List.dropWhile_append_of_pos hpos,
          List.singleton_append, List.takeWhile_cons_of_neg (by decide),
          List.dropWhile_cons_of_neg (by decide), List.append_nil]
        exact if_pos ⟨rfl, rfl⟩

/-- A name in braces occurs at the beginning of a text or further on. -/
theorem hasBraced_cons {c : Char} :
    HasBraced (c :: t) name ↔ bracedAt? (c :: t) = some name ∨ HasBraced t name := by
  rw [bracedAt?_eq_some_iff]
  constructor
  · rintro ⟨hplain, hoccurs⟩
    rcases List.infix_cons_iff.1 hoccurs with hbegins | hoccurs
    · exact .inl ⟨hplain, hbegins⟩
    · exact .inr ⟨hplain, hoccurs⟩
  · rintro (⟨hplain, hbegins⟩ | ⟨hplain, hoccurs⟩)
    · exact ⟨hplain, hbegins.isInfix⟩
    · exact ⟨hplain, List.infix_cons hoccurs⟩

/-- No name in braces begins at a character that is no opening brace. -/
theorem hasBraced_append_of_not_mem (h : '\x7b' ∉ u) :
    HasBraced (u ++ t) name ↔ HasBraced t name := by
  induction u with
  | nil => exact Iff.rfl
  | cons c u ih =>
      rw [List.mem_cons, not_or] at h
      have hnone : bracedAt? (c :: (u ++ t)) = none := by
        rw [bracedAt?, if_neg fun hbraces => h.1 hbraces.1.symm]
      rw [List.cons_append, hasBraced_cons, hnone, ih h.2]
      simp

theorem opening_not_mem (h : ∀ c ∈ name, isBrace c = false) : '\x7b' ∉ name ++ ['\x7d'] := by
  intro hmem
  rcases List.mem_append.1 hmem with hmem | hmem
  · exact absurd (h _ hmem) (by decide)
  · exact absurd (List.mem_singleton.1 hmem) (by decide)

/-- A name in braces that begins in the text before another one would end there. -/
theorem bracedAt?_append_inBraces {c : Char} (h : IsLiteral (c :: u)) (name t : Text) :
    bracedAt? (c :: (u ++ (inBraces name ++ t))) = none := by
  rw [Option.eq_none_iff_forall_ne_some]
  intro other hother
  obtain ⟨hplain, hbegins⟩ := bracedAt?_eq_some_iff.1 hother
  obtain ⟨hc, hrest⟩ := List.cons_prefix_cons.1 hbegins
  rw [inBraces, List.cons_append, prefix_append_cons_iff (opening_not_mem hplain)] at hrest
  have hwithin : inBraces other <+: c :: u := List.cons_prefix_cons.2 ⟨hc, hrest⟩
  exact h other ⟨hplain, hwithin.isInfix⟩

theorem IsLiteral.tail {c : Char} (h : IsLiteral (c :: u)) : IsLiteral u :=
  fun name hname => h name (hasBraced_cons.2 (.inr hname))

/-- A text falls apart at a name in braces: there are no others but the ones behind it. -/
theorem hasBraced_append_inBraces (hu : IsLiteral u) (hname : ∀ c ∈ name, isBrace c = false)
    (t : Text) :
    HasBraced (u ++ (inBraces name ++ t)) other ↔ other = name ∨ HasBraced t other := by
  induction u with
  | nil =>
      have hat : bracedAt? (inBraces name ++ t) = some name :=
        bracedAt?_eq_some_iff.2 ⟨hname, List.prefix_append _ _⟩
      rw [inBraces, List.cons_append] at hat ⊢
      rw [List.nil_append, hasBraced_cons, hat,
        hasBraced_append_of_not_mem (opening_not_mem hname), Option.some.injEq, eq_comm]
  | cons c u ih =>
      rw [List.cons_append, hasBraced_cons, bracedAt?_append_inBraces hu, ih hu.tail]
      simp

/-! ### From name to name -/

/-- **Induction along the names in braces of a text**: there is none, or there is a first one. -/
@[elab_as_elim]
theorem braced_induction {motive : Text → Prop} (literal : ∀ t, IsLiteral t → motive t)
    (braced : ∀ u name t, IsLiteral u → (∀ c ∈ name, isBrace c = false) → motive t →
      motive (u ++ (inBraces name ++ t))) (t : Text) : motive t := by
  by_cases h : IsLiteral t
  · exact literal t h
  · have hplace : ∃ u v, ∃ name, (∀ c ∈ name, isBrace c = false)
        ∧ t = u ++ (inBraces name ++ v) := by
      obtain ⟨name, hplain, front, back, ht⟩ := not_forall_not.1 h
      exact ⟨front, back, name, hplain, by rw [← ht, List.append_assoc]⟩
    obtain ⟨u, v, ⟨name, hplain, ht⟩, hfirst⟩ := exists_first hplace
    have hu : IsLiteral u := by
      rintro other ⟨hother, front, back, rfl⟩
      have hle := hfirst front (back ++ (inBraces name ++ v))
        ⟨other, hother, by rw [ht]; simp only [List.append_assoc]⟩
      simp only [inBraces, List.length_append, List.length_cons] at hle
      omega
    rw [ht]
    exact braced u name v hu hplain (braced_induction literal braced v)
termination_by t.length
decreasing_by simp [ht, inBraces]; omega

/-- What is passed over makes no token. -/
theorem tokensFrom_eq (passing : Nat) (t : Text) :
    tokensFrom passing t = tokens (t.drop passing) := by
  induction t generalizing passing with
  | nil => cases passing <;> rfl
  | cons c t ih =>
      cases passing with
      | zero => rfl
      | succ passing => exact ih passing

theorem tokens_cons_of_none {c : Char} (h : bracedAt? (c :: t) = none) :
    tokens (c :: t) = Token.char c :: tokens t := by
  rw [tokens, tokensFrom, h, tokens]

theorem tokens_of_isLiteral (h : IsLiteral t) : tokens t = t.map Token.char := by
  induction t with
  | nil => rfl
  | cons c t ih =>
      have hnone : bracedAt? (c :: t) = none := by
        rw [Option.eq_none_iff_forall_ne_some]
        exact fun name hname => h name (hasBraced_cons.2 (.inl hname))
      rw [tokens_cons_of_none hnone, ih h.tail, List.map_cons]

theorem tokens_inBraces_append (h : ∀ c ∈ name, isBrace c = false) (t : Text) :
    tokens (inBraces name ++ t) = Token.braced name :: tokens t := by
  have hat : bracedAt? (inBraces name ++ t) = some name :=
    bracedAt?_eq_some_iff.2 ⟨h, List.prefix_append _ _⟩
  rw [inBraces, List.cons_append] at hat ⊢
  rw [tokens, tokensFrom, hat]
  simp only
  rw [tokensFrom_eq, List.drop_left' (by simp)]

/-- **The tokens of a text** that falls apart at a name in braces. -/
theorem tokens_append_inBraces (hu : IsLiteral u) (hname : ∀ c ∈ name, isBrace c = false)
    (t : Text) : tokens (u ++ (inBraces name ++ t))
      = u.map Token.char ++ Token.braced name :: tokens t := by
  induction u with
  | nil => exact tokens_inBraces_append hname t
  | cons c u ih =>
      rw [List.cons_append, tokens_cons_of_none (bracedAt?_append_inBraces hu name t), ih hu.tail,
        List.map_cons, List.cons_append]

theorem namesOf_map_char (t : Text) (rest : List Token) :
    namesOf (t.map Token.char ++ rest) = namesOf rest := by
  induction t with
  | nil => rfl
  | cons c t ih => exact ih

/-- **The search meets the names that occur.** -/
theorem mem_namesOf_tokens_iff : name ∈ namesOf (tokens t) ↔ HasBraced t name := by
  induction t using braced_induction with
  | literal t ht =>
      have hnames := namesOf_map_char t []
      rw [List.append_nil] at hnames
      rw [tokens_of_isLiteral ht, hnames]
      exact iff_of_false List.not_mem_nil (ht name)
  | braced u first t hu hfirst ih =>
      rw [tokens_append_inBraces hu hfirst, namesOf_map_char, hasBraced_append_inBraces hu hfirst,
        ← ih]
      exact List.mem_cons

theorem isLiteral_iff : IsLiteral t ↔ namesOf (tokens t) = [] := by
  rw [List.eq_nil_iff_forall_not_mem]
  exact forall_congr' fun name => not_congr mem_namesOf_tokens_iff.symm

instance (t : Text) : Decidable (IsLiteral t) := decidable_of_iff _ isLiteral_iff.symm

/-! ### Reading -/

theorem Slot.mem_all (place : Slot) : place ∈ Slot.all := by
  cases place <;> decide

theorem Slot.ofName?_isSome_iff :
    (Slot.ofName? name).isSome = true ↔ ∃ place : Slot, name = place.name := by
  constructor
  · intro h
    obtain ⟨place, hplace⟩ := Option.isSome_iff_exists.1 h
    have hname : place.name = name := by simpa using List.find?_some hplace
    exact ⟨place, hname.symm⟩
  · rintro ⟨place, rfl⟩
    rw [Slot.ofName?_name]
    rfl

/-- **Which texts are templates**, and the pieces of the template that is read. -/
theorem parse_eq_ok_iff : parse t = .ok template
    ↔ (∀ name, HasBraced t name → ∃ place : Slot, name = place.name)
      ∧ (∀ place : Slot, HasBraced t place.name)
      ∧ template.pieces = (tokens t).flatMap piecesOf := by
  have hknown : ((namesOf (tokens t)).find? fun name => (Slot.ofName? name).isNone) = none
      ↔ ∀ name, HasBraced t name → ∃ place : Slot, name = place.name := by
    rw [List.find?_eq_none]
    refine forall_congr' fun name => ?_
    rw [mem_namesOf_tokens_iff, ← Slot.ofName?_isSome_iff, Bool.not_eq_true,
      Option.isNone_eq_false_iff]
  have hused : unused (tokens t) = [] ↔ ∀ place : Slot, HasBraced t place.name := by
    rw [unused, List.filter_eq_nil_iff]
    refine forall_congr' fun place => ?_
    rw [← mem_namesOf_tokens_iff]
    simp [Slot.mem_all]
  rw [parse]
  constructor
  · intro h
    split at h
    · cases h
    · next hnone =>
      split at h
      · next hnil =>
        obtain rfl := Except.ok.inj h
        exact ⟨hknown.1 hnone, hused.1 hnil, rfl⟩
      · cases h
  · rintro ⟨hall, heach, hpieces⟩
    simp only [hknown.2 hall, dif_pos (hused.2 heach), ← hpieces]

theorem exists_parse_eq_ok (hknown : ∀ name, HasBraced t name → ∃ place : Slot, name = place.name)
    (hused : ∀ place : Slot, HasBraced t place.name) : ∃ template, parse t = .ok template := by
  have hnil : unused (tokens t) = [] := by
    rw [unused, List.filter_eq_nil_iff]
    intro place _
    simpa using mem_namesOf_tokens_iff.2 (hused place)
  exact ⟨⟨_, slot_mem_of_unused_eq_nil hnil⟩, parse_eq_ok_iff.2 ⟨hknown, hused, rfl⟩⟩

/-- A template has a place for each slot. -/
theorem slot_mem_pieces (template : Template) (place : Slot) :
    Piece.slot place ∈ template.pieces :=
  template.used place (Slot.mem_all place)

/-! ### Taking apart and putting together -/

/-- A text taken apart at its slots. -/
inductive Cut where
  /-- The text behind the last slot. -/
  | last (text : Text)
  /-- The text in front of a slot, and what is behind the slot. -/
  | part (text : Text) (place : Slot) (behind : Cut)

namespace Cut

/-- The pieces put together, with values in place of the slots. -/
def join (values : Slot → Text) : Cut → Text
  | last text => text
  | part text place behind => text ++ (values place ++ behind.join values)

/-- The texts between the slots. -/
def texts : Cut → List Text
  | last text => [text]
  | part text _ behind => text :: behind.texts

/-- The pieces of the template that is taken apart. -/
def pieces : Cut → List Piece
  | last text => text.map Piece.char
  | part text place behind => text.map Piece.char ++ Piece.slot place :: behind.pieces

/-- With the names of the slots in their places the cut is the text, and there are no names in
braces between the slots. -/
structure IsCutOf (cut : Cut) (t : Text) : Prop where
  join_eq : cut.join (fun place => inBraces place.name) = t
  literal : ∀ text ∈ cut.texts, IsLiteral text

end Cut

variable {cut : Cut}

theorem plain_name (place : Slot) : ∀ c ∈ place.name, isBrace c = false := by
  have hall : place.name.all (fun c => !isBrace c) = true := by
    cases place <;> decide
  simpa using hall

theorem flatMap_piecesOf_map_char (t : Text) :
    (t.map Token.char).flatMap piecesOf = t.map Piece.char := by
  rw [List.flatMap_map, List.map_eq_flatMap]
  rfl

/-- A text has the pieces of its cuts. -/
theorem Cut.IsCutOf.flatMap_piecesOf (h : cut.IsCutOf t) :
    (tokens t).flatMap piecesOf = cut.pieces := by
  obtain ⟨rfl, hliteral⟩ := h
  induction cut with
  | last text =>
      rw [Cut.join, tokens_of_isLiteral (hliteral text List.mem_cons_self),
        flatMap_piecesOf_map_char, Cut.pieces]
  | part text place behind ih =>
      rw [Cut.join, tokens_append_inBraces (hliteral text List.mem_cons_self) (plain_name place),
        List.flatMap_append, List.flatMap_cons, flatMap_piecesOf_map_char,
        ih fun u hu => hliteral u (List.mem_cons_of_mem _ hu), piecesOf, Slot.ofName?_name,
        Cut.pieces]
      rfl

theorem flatMap_fill_map_char (values : Slot → Text) (t : Text) :
    (t.map Piece.char).flatMap (Piece.fill values) = t := by
  rw [List.flatMap_map]
  exact List.flatMap_singleton' t

/-- Filling the pieces of a cut puts it together. -/
theorem Cut.flatMap_fill_pieces (values : Slot → Text) (cut : Cut) :
    cut.pieces.flatMap (Piece.fill values) = cut.join values := by
  induction cut with
  | last text => exact flatMap_fill_map_char values text
  | part text place behind ih =>
      rw [Cut.pieces, List.flatMap_append, List.flatMap_cons, flatMap_fill_map_char, ih]
      rfl

/-- Pieces that are characters end at the first slot. -/
theorem map_char_append_slot_inj {u v : Text} {place other : Slot} {rest more : List Piece}
    (h : u.map Piece.char ++ Piece.slot place :: rest
      = v.map Piece.char ++ Piece.slot other :: more) : u = v ∧ place = other ∧ rest = more := by
  induction u generalizing v with
  | nil =>
      cases v with
      | nil => simpa using h
      | cons d v => simp at h
  | cons c u ih =>
      cases v with
      | nil => simp at h
      | cons d v =>
          simp only [List.map_cons, List.cons_append, List.cons.injEq, Piece.char.injEq] at h
          obtain ⟨rfl, hrest⟩ := h
          obtain ⟨rfl, rfl, rfl⟩ := ih hrest
          exact ⟨rfl, rfl, rfl⟩

theorem Cut.pieces_injective : Function.Injective Cut.pieces := by
  intro cut other h
  induction cut generalizing other with
  | last text =>
      cases other with
      | last more =>
          have hmap : text.map Piece.char = more.map Piece.char := h
          rw [(List.map_inj_right fun _ _ => Piece.char.inj).1 hmap]
      | part more place behind =>
          have hmem : Piece.slot place ∈ (Cut.last text).pieces := by
            rw [h, Cut.pieces]
            simp
          simp [Cut.pieces] at hmem
  | part text place behind ih =>
      cases other with
      | last more =>
          have hmem : Piece.slot place ∈ (Cut.last more).pieces := by
            rw [← h, Cut.pieces]
            simp
          simp [Cut.pieces] at hmem
      | part more place' behind' =>
          obtain ⟨rfl, rfl, hbehind⟩ := map_char_append_slot_inj h
          rw [ih hbehind]

/-- A text with no other names in braces than those of slots can be taken apart at them. -/
theorem exists_isCutOf (h : ∀ name, HasBraced t name → ∃ place : Slot, name = place.name) :
    ∃ cut : Cut, cut.IsCutOf t := by
  induction t using braced_induction with
  | literal t ht => exact ⟨.last t, rfl, fun u hu => List.mem_singleton.1 hu ▸ ht⟩
  | braced u name t hu hname ih =>
      obtain ⟨place, rfl⟩ := h name ((hasBraced_append_inBraces hu hname t).2 (.inl rfl))
      obtain ⟨cut, rfl, hliteral⟩ :=
        ih fun other hother => h other ((hasBraced_append_inBraces hu hname t).2 (.inr hother))
      refine ⟨.part u place cut, rfl, fun text htext => ?_⟩
      rcases List.mem_cons.1 htext with rfl | htext
      · exact hu
      · exact hliteral text htext

/-- **Reading and filling templates.**  A text is a template exactly when every name in braces that
occurs in it is the name of a slot, and each of the three slots occurs.  Then there is one way to
take it apart at its slots, and filling the template puts the parts together with all values in
place of the slots, whatever the values are. -/
theorem parse_fill (t : Text) :
    ((∃ template, parse t = .ok template)
        ↔ (∀ name, HasBraced t name → ∃ place : Slot, name = place.name)
          ∧ ∀ place : Slot, HasBraced t place.name)
      ∧ ∀ template, parse t = .ok template → ∃ cut : Cut, (∀ other, other.IsCutOf t ↔ other = cut)
          ∧ ∀ values, template.fill values = cut.join values := by
  constructor
  · constructor
    · rintro ⟨template, h⟩
      obtain ⟨hknown, hused, -⟩ := parse_eq_ok_iff.1 h
      exact ⟨hknown, hused⟩
    · rintro ⟨hknown, hused⟩
      exact exists_parse_eq_ok hknown hused
  · intro template h
    obtain ⟨hknown, -, hpieces⟩ := parse_eq_ok_iff.1 h
    obtain ⟨cut, hcut⟩ := exists_isCutOf hknown
    refine ⟨cut, fun other => ⟨fun hother => ?_, fun heq => heq ▸ hcut⟩, fun values => ?_⟩
    · exact Cut.pieces_injective (hother.flatMap_piecesOf.symm.trans hcut.flatMap_piecesOf)
    · rw [fill, hpieces, hcut.flatMap_piecesOf, Cut.flatMap_fill_pieces]

/-- A template with braces around a slot and a brace that is never closed. -/
def looseBraces : Template :=
  ⟨[.char '\x7b', .slot .subject, .char '\x7d', .char ' ', .slot .issueId, .slot .body,
    .char '\x7b'], by decide⟩

/-- Braces around a slot and a brace that is never closed are kept. -/
theorem parse_fill_loose_braces :
    parse "\x7b\x7bsubject\x7d\x7d \x7bissue_id\x7d\x7bbody\x7d\x7b" = .ok looseBraces
      ∧ ∀ values, looseBraces.fill values
        = ['\x7b'] ++ values .subject ++ ['\x7d', ' '] ++ values .issueId ++ values .body
          ++ ['\x7b'] := by
  have hparse : parse "\x7b\x7bsubject\x7d\x7d \x7bissue_id\x7d\x7bbody\x7d\x7b"
      = .ok looseBraces := by decide
  obtain ⟨cut, hcut, hfill⟩ := (parse_fill _).2 _ hparse
  have hparts : Cut.IsCutOf (.part "\x7b" .subject (.part "\x7d " .issueId (.part [] .body
      (.last "\x7b")))) "\x7b\x7bsubject\x7d\x7d \x7bissue_id\x7d\x7bbody\x7d\x7b" :=
    ⟨by decide, by decide⟩
  refine ⟨hparse, fun values => ?_⟩
  rw [hfill, ← (hcut _).1 hparts]
  simp [Cut.join]

end Template

end GitHooks
