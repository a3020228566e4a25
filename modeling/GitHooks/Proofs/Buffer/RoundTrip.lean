/-
**Writing back a buffer that nobody changed.**

A buffer keeps one line ending for the whole file and one flag for its last line.  That is enough
for every file without a carriage return and line feed pair, however many stray carriage returns
it has.  A file with such a pair is cut at the pairs only, and then its last characters decide:
a lone line feed at the end comes back as a pair, and a lone carriage return at the end is lost.
In all other files nothing is lost.

Main results:

* `Buffer.render_parse` — what is written back: the body, and the ending if there was one;
* `Buffer.render_parse_eq_iff` — exactly which files are written back as they were.
-/

import GitHooks.Buffer
import GitHooks.Proofs.Text.Split

set_option relaxedAutoImplicit false
set_option autoImplicit false

namespace GitHooks

open Text

/-! ### Line endings -/

theorem Newline.text_ne_nil (newline : Newline) : newline.text ≠ [] := by
  cases newline <;> decide

theorem Newline.ofText_eq_crlf_iff {content : Text} :
    Newline.ofText content = crlf ↔ occursIn "\r\n" content = true := by
  unfold Newline.ofText
  split <;> simp_all

theorem Newline.ofText_eq_lf_iff {content : Text} :
    Newline.ofText content = lf ↔ occursIn "\r\n" content = false := by
  unfold Newline.ofText
  split <;> simp_all

namespace Buffer

/-! ### What is written back -/

/-- A buffer that nobody changed is written as the body of the text it was read from, ended by the
line ending in use if the text was ended at all. -/
theorem render_parse (content : Text) :
    (parse content).render = bodyOf (Newline.ofText content) content
      ++ if endsWith content "\n" then (Newline.ofText content).text else [] := by
  unfold render
  congr 1
  cases content with
  | nil => rfl
  | cons c t => exact joinWith_splitOn (Newline.text_ne_nil _) _

theorem bodyOf_lf_append (content : Text) :
    bodyOf Newline.lf content ++ (if endsWith content "\n" then Newline.lf.text else [])
      = content := by
  unfold bodyOf
  cases h : dropTrailing? "\n" content with
  | none =>
      have he : endsWith content "\n" = false :=
        endsWith_eq_false_iff.2 (dropTrailing?_eq_none_iff.1 h)
      rw [he, if_neg Bool.false_ne_true]
      exact List.append_nil content
  | some body =>
      rw [dropTrailing?_eq_some_iff] at h
      have he : endsWith content "\n" = true := endsWith_iff.2 ⟨body, h.symm⟩
      rw [he, if_pos rfl]
      exact h.symm

/-- The body of a text that ends with a line feed, where the pair is in use: a carriage return
before the line feed goes with it. -/
theorem bodyOf_crlf_feed (body : Text) :
    bodyOf Newline.crlf (body ++ ['\n']) = (dropTrailing? "\r" body).getD body := by
  have hn : dropTrailing? ['\n'] (body ++ ['\n']) = some body := dropTrailing?_eq_some_iff.2 rfl
  simp [bodyOf, hn]

/-- The body of a text that does not end with a line feed, where the pair is in use: it loses the
carriage return that it may end with. -/
theorem bodyOf_crlf_open {content : Text} (h : endsWith content "\n" = false) :
    bodyOf Newline.crlf content = (dropTrailing? "\r" content).getD content := by
  have hn : dropTrailing? ['\n'] content = none :=
    dropTrailing?_eq_none_iff.2 (endsWith_eq_false_iff.1 h)
  simp [bodyOf, hn]

theorem bodyOf_crlf_pair (body : Text) : bodyOf Newline.crlf (body ++ ['\r', '\n']) = body := by
  have hr : dropTrailing? ['\r'] (body ++ ['\r']) = some body := dropTrailing?_eq_some_iff.2 rfl
  have hbody := bodyOf_crlf_feed (body ++ ['\r'])
  rw [List.append_assoc] at hbody
  exact hbody.trans (by simp [hr])

/-- A text that ends with neither of the two characters is its own body. -/
theorem bodyOf_of_open {content : Text} (newline : Newline)
    (hn : ¬ ['\n'] <:+ content) (hr : ¬ ['\r'] <:+ content) : bodyOf newline content = content := by
  have hn' : dropTrailing? ['\n'] content = none := dropTrailing?_eq_none_iff.2 hn
  have hr' : dropTrailing? ['\r'] content = none := dropTrailing?_eq_none_iff.2 hr
  cases newline with
  | lf => simp [bodyOf, hn']
  | crlf => simp [bodyOf, hn', hr']

theorem render_parse_of_pair {body : Text} (h : occursIn "\r\n" (body ++ ['\r', '\n']) = true) :
    (parse (body ++ ['\r', '\n'])).render = body ++ ['\r', '\n'] := by
  have he : endsWith (body ++ ['\r', '\n']) "\n" = true :=
    endsWith_iff.2 ⟨body ++ ['\r'], by simp⟩
  rw [render_parse, Newline.ofText_eq_crlf_iff.2 h, bodyOf_crlf_pair, he, if_pos rfl]
  rfl

/-- A lone line feed at the end of a file that uses the pair is written back as a pair. -/
theorem render_parse_of_feed {body : Text} (h : occursIn "\r\n" (body ++ ['\n']) = true)
    (hr : endsWith body "\r" = false) :
    (parse (body ++ ['\n'])).render = body ++ ['\r', '\n'] := by
  have he : endsWith (body ++ ['\n']) "\n" = true := endsWith_iff.2 ⟨body, rfl⟩
  have hn : dropTrailing? "\r" body = none :=
    dropTrailing?_eq_none_iff.2 (endsWith_eq_false_iff.1 hr)
  rw [render_parse, Newline.ofText_eq_crlf_iff.2 h, bodyOf_crlf_feed, hn, he, if_pos rfl]
  rfl

/-- A lone carriage return at the end of a file that uses the pair is lost. -/
theorem render_parse_of_return {body : Text} (h : occursIn "\r\n" (body ++ ['\r']) = true) :
    (parse (body ++ ['\r'])).render = body := by
  have he : endsWith (body ++ ['\r']) "\n" = false := by
    rw [endsWith_eq_false_iff]
    rintro ⟨front, hf⟩
    have := (List.append_inj' hf rfl).2
    simp at this
  have hr : dropTrailing? "\r" (body ++ ['\r']) = some body := dropTrailing?_eq_some_iff.2 rfl
  rw [render_parse, Newline.ofText_eq_crlf_iff.2 h, bodyOf_crlf_open he, hr, he,
    if_neg Bool.false_ne_true]
  exact List.append_nil body

theorem render_parse_of_open {content : Text} (h : occursIn "\r\n" content = true)
    (hn : endsWith content "\n" = false) (hr : endsWith content "\r" = false) :
    (parse content).render = content := by
  have hbody : bodyOf Newline.crlf content = content :=
    bodyOf_of_open _ (endsWith_eq_false_iff.1 hn) (endsWith_eq_false_iff.1 hr)
  rw [render_parse, Newline.ofText_eq_crlf_iff.2 h, hbody, hn, if_neg Bool.false_ne_true]
  exact List.append_nil content

/-! ### Files that come back as they were -/

/-- **A file is written back as it was** exactly when it has no carriage return and line feed
pair, or ends with one, or ends with neither of the two characters. -/
theorem render_parse_eq_iff (content : Text) :
    (parse content).render = content ↔
      (occursIn "\r\n" content = true →
        endsWith content "\r\n" = true
          ∨ endsWith content "\n" = false ∧ endsWith content "\r" = false) := by
  cases hp : occursIn "\r\n" content with
  | false =>
      -- cut at the line feeds, stray carriage returns stay in their lines
      rw [render_parse, Newline.ofText_eq_lf_iff.2 hp, bodyOf_lf_append]
      simp
  | true =>
      rw [eq_self_iff_true, true_implies]
      -- the last characters decide: neither, a lone carriage return, a line feed
      cases hn : endsWith content "\n" with
      | false =>
          cases hr : endsWith content "\r" with
          | false => simp [render_parse_of_open hp hn hr]
          | true =>
              obtain ⟨body, rfl⟩ := endsWith_iff.1 hr
              have hne : body ≠ body ++ ['\r'] := by simp
              have hpair : endsWith (body ++ ['\r']) "\r\n" = false := by
                rw [endsWith_eq_false_iff] at hn ⊢
                exact fun h => hn (List.IsSuffix.trans ⟨['\r'], rfl⟩ h)
              rw [show "\r".toList = ['\r'] from rfl, render_parse_of_return hp, hpair]
              simp
      | true =>
          obtain ⟨body, rfl⟩ := endsWith_iff.1 hn
          cases hr : endsWith body "\r" with
          | true =>
              obtain ⟨front, rfl⟩ := endsWith_iff.1 hr
              have hpair : endsWith (front ++ ['\r', '\n']) "\r\n" = true :=
                endsWith_iff.2 ⟨front, rfl⟩
              have hc : front ++ "\r".toList ++ "\n".toList = front ++ ['\r', '\n'] := by simp
              rw [hc] at hp ⊢
              simp only [render_parse_of_pair hp, hpair, true_or]
          | false =>
              have hpair : endsWith (body ++ ['\n']) "\r\n" = false := by
                rw [endsWith_eq_false_iff] at hr ⊢
                rintro ⟨front, hf⟩
                refine hr ⟨front, ?_⟩
                have : (front ++ ['\r']) ++ ['\n'] = body ++ ['\n'] := by simpa using hf
                exact List.append_cancel_right this
              rw [show "\n".toList = ['\n'] from rfl, render_parse_of_feed hp hr, hpair]
              simp

/-- A file of two lines, the first ended by the pair and the last by a lone line feed, is not
written back as it was. -/
theorem render_parse_mixed_endings :
    ¬ ∀ content : Text, (parse content).render = content := by
  intro h
  exact absurd (h "a\r\nb\n") (by decide)

end Buffer

end GitHooks
