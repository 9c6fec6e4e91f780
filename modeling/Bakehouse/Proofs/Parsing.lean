import Bakehouse.Proofs.Traversal
import Bakehouse.Reader.Parser

namespace Bakehouse

mutual

/-- The tokens are those of the form. -/
inductive Composes : List Token → Form → Prop
  | atom {t : Token} {f : Form} (ht : t.kind = .atom) (h : Form.ofAtom t.text = .ok f) :
      Composes [t] f
  | literal {t : Token} {e : Enclosure} {f : Form} (ht : t.kind = .literal e)
      (h : Form.ofLiteral e t.text = .ok f) : Composes [t] f
  | quote {t : Token} {p : List Token} {f : Form} (ht : t.kind = .quote) (h : Composes p f) :
      Composes (t :: p) f.quoted
  | list {opening closing : Token} {ps : List Token} {fs : List Form}
      (hopening : opening.kind = .lparen) (hclosing : closing.kind = .rparen)
      (h : ComposeAll ps fs) : Composes (opening :: (ps ++ [closing])) (.list fs)

/-- The tokens are those of the forms, one after the other. -/
inductive ComposeAll : List Token → List Form → Prop
  | nil : ComposeAll [] []
  | cons {p ps : List Token} {f : Form} {fs : List Form} (h : Composes p f)
      (hs : ComposeAll ps fs) : ComposeAll (p ++ ps) (f :: fs)

end

theorem Composes.length_pos {p : List Token} {f : Form} (h : Composes p f) : 0 < p.length := by
  cases h <;> simp

theorem ComposeAll.length_le {ps : List Token} {fs : List Form} (h : ComposeAll ps fs) :
    fs.length ≤ ps.length := by
  induction fs generalizing ps with
  | nil => exact Nat.zero_le _
  | cons f fs ih =>
      cases h with
      | cons hf hfs =>
          have hpos := hf.length_pos
          have hlater := ih hfs
          rw [List.length_append, List.length_cons]
          omega

namespace Parser

variable {failure : Option ReadError}

/-- How the parser goes on after a token. -/
def resume (failure : Option ReadError) : Progress → List Token → Except ReadError Form × Tokens
  | .done f, ts => (.ok f, ⟨ts, failure⟩)
  | .more stack, ts => form failure stack ts

theorem form_cons {stack : List Unfinished} {t : Token} {progress : Progress}
    (h : feed stack t = .ok progress) (ts : List Token) :
    form failure stack (t :: ts) = resume failure progress ts := by
  rw [form, h]
  cases progress <;> rfl

theorem exists_of_form_cons {stack : List Unfinished} {t : Token} {ts : List Token} {g : Form}
    {later : Tokens} (h : form failure stack (t :: ts) = (.ok g, later)) :
    ∃ progress, feed stack t = .ok progress ∧ resume failure progress ts = (.ok g, later) := by
  cases hfeed : feed stack t with
  | error e =>
      rw [form, hfeed] at h
      cases h
  | ok progress =>
      rw [form_cons hfeed] at h
      exact ⟨progress, rfl, h⟩

mutual

theorem form_composes {p : List Token} {f : Form} :
    Composes p f → ∀ (stack : List Unfinished) (ts : List Token),
      form failure stack (p ++ ts) = resume failure (complete stack f) ts
  | .atom ht h, stack, ts => by
      refine form_cons ?_ ts
      simp only [feed, ht, h]
      rfl
  | .literal ht h, stack, ts => by
      refine form_cons ?_ ts
      simp only [feed, ht, h]
      rfl
  | @Composes.quote t p f ht h, stack, ts => by
      have hfeed : feed stack t = .ok (.more (.quote :: stack)) := by simp only [feed, ht]
      rw [List.cons_append, form_cons hfeed]
      exact form_composes h (.quote :: stack) ts
  | @Composes.list opening closing ps fs hopening hclosing h, stack, ts => by
      have hopen : feed stack opening = .ok (.more (.list [] :: stack)) := by
        simp only [feed, hopening]
      have hclose : feed (.list fs.reverse :: stack) closing = .ok (complete stack (.list fs)) := by
        simp only [feed, hclosing, List.reverse_reverse]
      rw [List.cons_append, form_cons hopen, List.append_assoc]
      change form failure (.list [] :: stack) (ps ++ ([closing] ++ ts)) = _
      rw [form_composeAll h [] stack, List.append_nil, List.singleton_append]
      exact form_cons hclose ts

theorem form_composeAll {ps : List Token} {fs : List Form} :
    ComposeAll ps fs → ∀ (reversed : List Form) (stack : List Unfinished) (ts : List Token),
      form failure (.list reversed :: stack) (ps ++ ts) =
        form failure (.list (fs.reverse ++ reversed) :: stack) ts
  | .nil, _, _, _ => rfl
  | @ComposeAll.cons p ps f fs h hs, reversed, stack, ts => by
      rw [List.append_assoc, form_composes h]
      change form failure (.list (f :: reversed) :: stack) (ps ++ ts) = _
      rw [form_composeAll hs]
      simp

end

mutual

/-- A parser that succeeds has first read a form and handed it to the stack, or has closed the list
on top of the stack. -/
theorem exists_composes {ts : List Token} {stack : List Unfinished} {g : Form} {later : Tokens}
    (h : form failure stack ts = (.ok g, later)) :
    (∃ p f us, ts = p ++ us ∧ Composes p f ∧
        resume failure (complete stack f) us = (.ok g, later)) ∨
      ∃ reversed below closing us, stack = .list reversed :: below ∧ ts = closing :: us ∧
        closing.kind = .rparen ∧
        resume failure (complete below (.list reversed.reverse)) us = (.ok g, later) := by
  cases ts with
  | nil => cases h
  | cons t ts =>
      obtain ⟨progress, hfeed, hrest⟩ := exists_of_form_cons h
      cases ht : t.kind with
      | quote =>
          simp only [feed, ht] at hfeed
          cases hfeed
          rcases exists_composes hrest with ⟨p, f, us, rfl, hf, hrest⟩ | ⟨_, _, _, _, hstack, _⟩
          · exact .inl ⟨t :: p, f.quoted, us, rfl, .quote ht hf, hrest⟩
          · cases hstack
      | lparen =>
          simp only [feed, ht] at hfeed
          cases hfeed
          obtain ⟨ps, fs, closing, us, rfl, hclosing, hfs, hrest⟩ := exists_composeAll hrest
          refine .inl ⟨t :: (ps ++ [closing]), .list fs, us, ?_, .list ht hclosing hfs, hrest⟩
          simp
      | rparen =>
          rcases stack with _ | ⟨_ | _, below⟩ <;> simp only [feed, ht] at hfeed
          · cases hfeed
          · cases hfeed
            exact .inr ⟨_, below, t, ts, rfl, rfl, ht, hrest⟩
          · cases hfeed
      | literal e =>
          simp only [feed, ht] at hfeed
          obtain ⟨f, hf, rfl⟩ := exists_of_map hfeed
          exact .inl ⟨[t], f, ts, rfl, .literal ht hf, hrest⟩
      | atom =>
          simp only [feed, ht] at hfeed
          obtain ⟨f, hf, rfl⟩ := exists_of_map hfeed
          exact .inl ⟨[t], f, ts, rfl, .atom ht hf, hrest⟩
      | other label =>
          simp only [feed, ht] at hfeed
          cases hfeed
termination_by (ts.length, 0)

theorem exists_composeAll {ts : List Token} {reversed : List Form} {stack : List Unfinished}
    {g : Form} {later : Tokens} (h : form failure (.list reversed :: stack) ts = (.ok g, later)) :
    ∃ ps fs closing us, ts = ps ++ closing :: us ∧ closing.kind = .rparen ∧ ComposeAll ps fs ∧
      resume failure (complete stack (.list (reversed.reverse ++ fs))) us = (.ok g, later) := by
  rcases exists_composes h with
    ⟨p, f, us, hsplit, hf, hrest⟩ | ⟨_, _, closing, us, hstack, rfl, hclosing, hrest⟩
  · have hlength : us.length < ts.length := by
      have hp := hf.length_pos
      rw [hsplit, List.length_append]
      omega
    obtain ⟨ps, fs, closing, vs, rfl, hclosing, hfs, hrest⟩ := exists_composeAll hrest
    refine ⟨p ++ ps, f :: fs, closing, vs, ?_, hclosing, .cons hf hfs, ?_⟩
    · rw [hsplit, List.append_assoc]
    · simpa using hrest
  · cases hstack
    exact ⟨[], [], closing, us, rfl, hclosing, .nil, by simpa using hrest⟩
termination_by (ts.length, 1)

end

theorem form_eq_ok_iff_composes {ts : List Token} {f : Form} {later : Tokens} :
    form failure [] ts = (.ok f, later) ↔
      ∃ p rest, ts = p ++ rest ∧ Composes p f ∧ later = ⟨rest, failure⟩ := by
  constructor
  · intro h
    rcases exists_composes h with ⟨p, g, rest, hsplit, hg, hdone⟩ | ⟨_, _, _, _, hstack, _⟩
    · cases hdone
      exact ⟨p, rest, hsplit, hg, rfl⟩
    · cases hstack
  · rintro ⟨p, rest, rfl, hf, rfl⟩
    exact form_composes hf [] rest

theorem ready_form_suffix (stack : List Unfinished) (ts : List Token) :
    (form failure stack ts).2.ready <:+ ts.tail := by
  induction ts generalizing stack with
  | nil => exact List.suffix_refl []
  | cons t ts ih =>
      cases hfeed : feed stack t with
      | error e =>
          rw [form, hfeed]
          exact List.suffix_refl ts
      | ok progress =>
          rw [form_cons hfeed]
          cases progress with
          | done f => exact List.suffix_refl ts
          | more stack => exact (ih stack).trans (List.tail_suffix ts)

end Parser

end Bakehouse
