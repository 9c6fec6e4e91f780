import Bakehouse.Proofs.Parsing
import Bakehouse.Reader.Stream
import Mathlib.Data.List.Infix

namespace Bakehouse

namespace TokenStream

variable {s : TokenStream}

/-- The stream as bare tokens. -/
def tokens (s : TokenStream) : Tokens :=
  ⟨s.pending, s.source.failure⟩

theorem tokens_peek (h : s.source.failure = none) : s.peek.2.tokens = s.tokens := by
  rcases s with ⟨_ | ⟨t, rest⟩, ⟨_ | ⟨u, ready⟩, failure⟩⟩ <;> cases h <;> rfl

theorem peek_eq (h : s.source.failure = none) : s.peek.1 = .ok s.pending.head? := by
  rcases s with ⟨_ | ⟨t, rest⟩, ⟨_ | ⟨u, ready⟩, failure⟩⟩ <;> cases h <;> rfl

theorem advance_eq (h : s.source.failure = none) : s.advance.1 = .ok s.pending.head? := by
  rcases s with ⟨_ | ⟨t, rest⟩, ⟨_ | ⟨u, ready⟩, failure⟩⟩ <;> cases h <;> rfl

theorem tokens_advance (h : s.source.failure = none) :
    s.advance.2.tokens = ⟨s.pending.tail, none⟩ := by
  rcases s with ⟨_ | ⟨t, rest⟩, ⟨_ | ⟨u, ready⟩, failure⟩⟩ <;> cases h <;> rfl

theorem pending_advance (h : s.source.failure = none) : s.advance.2.pending = s.pending.tail :=
  congrArg Tokens.ready (tokens_advance h)

theorem atEnd_eq (h : s.source.failure = none) :
    s.atEnd = (.ok s.pending.isEmpty, s.peek.2) := by
  rcases s with ⟨_ | ⟨t, rest⟩, ⟨_ | ⟨u, ready⟩, failure⟩⟩ <;> cases h <;> rfl

theorem remaining_eq (h : s.source.failure = none) :
    s.remaining = (.ok s.pending, ofTokens ⟨[], none⟩) := by
  rcases s with ⟨buffer, ⟨ready, failure⟩⟩
  cases h
  rfl

/-- The source ends without an error, and at most one of its tokens has been looked at. -/
structure Regular (s : TokenStream) : Prop where
  failure_eq : s.source.failure = none
  length_le : s.buffer.length ≤ 1

theorem regular_ofTokens (ts : List Token) : (ofTokens ⟨ts, none⟩).Regular :=
  ⟨rfl, Nat.zero_le 1⟩

theorem Regular.peek (h : s.Regular) : s.peek.2.Regular := by
  obtain ⟨hfailure, hlength⟩ := h
  rcases s with ⟨_ | ⟨t, rest⟩, ⟨_ | ⟨u, ready⟩, failure⟩⟩ <;> cases hfailure
  · exact ⟨rfl, Nat.zero_le 1⟩
  · exact ⟨rfl, Nat.le_refl 1⟩
  · exact ⟨rfl, hlength⟩
  · exact ⟨rfl, hlength⟩

theorem Regular.advance (h : s.Regular) : s.advance.2.Regular := by
  obtain ⟨hfailure, hlength⟩ := h
  rcases s with ⟨_ | ⟨t, rest⟩, ⟨_ | ⟨u, ready⟩, failure⟩⟩ <;> cases hfailure
  · exact ⟨rfl, Nat.zero_le 1⟩
  · exact ⟨rfl, Nat.zero_le 1⟩
  · exact ⟨rfl, Nat.le_of_succ_le hlength⟩
  · exact ⟨rfl, Nat.le_of_succ_le hlength⟩

theorem next_cons (h : s.source.failure = none) (top : Parser.Unfinished)
    (below : List Parser.Unfinished) :
    s.next (top :: below) =
      match s.pending.head? with
      | some _ => s.peek.2.advance
      | none => (.ok none, s.peek.2) := by
  have hpeek : s.peek = (.ok s.pending.head?, s.peek.2) := Prod.ext (peek_eq h) rfl
  rw [next, hpeek]
  cases s.pending.head? <;> rfl

/-- Looking first makes no difference to the token that is taken. -/
theorem next_eq (h : s.Regular) (stack : List Parser.Unfinished) :
    ∃ rest, s.next stack = (.ok s.pending.head?, rest) ∧ rest.tokens = ⟨s.pending.tail, none⟩ ∧
      rest.Regular := by
  cases stack with
  | nil =>
      exact ⟨s.advance.2, Prod.ext (advance_eq h.failure_eq) rfl, tokens_advance h.failure_eq,
        h.advance⟩
  | cons top below =>
      have hpeek := h.peek
      have hpending := s.pending_peek
      rw [next_cons h.failure_eq]
      cases hp : s.pending with
      | nil =>
          refine ⟨s.peek.2, rfl, ?_, hpeek⟩
          rw [tokens_peek h.failure_eq, tokens, hp, h.failure_eq]
          rfl
      | cons t ts =>
          refine ⟨s.peek.2.advance.2, Prod.ext ?_ rfl, ?_, hpeek.advance⟩
          · rw [List.head?_cons, advance_eq hpeek.failure_eq, hpending, hp, List.head?_cons]
          · rw [tokens_advance hpeek.failure_eq, hpending, hp]

theorem formAfter_of_end {stack : List Parser.Unfinished} {rest : TokenStream}
    (h : s.next stack = (.ok none, rest)) :
    s.formAfter stack = (.error (Parser.missing stack), rest) := by
  rw [formAfter]
  split <;> simp_all

/-- The stream reads the form that its bare tokens have, and leaves the tokens that are left. -/
theorem formAfter_eq (h : s.Regular) (stack : List Parser.Unfinished) :
    Prod.map id tokens (s.formAfter stack) = Parser.form none stack s.pending ∧
      (s.formAfter stack).2.Regular := by
  induction hp : s.pending generalizing s stack with
  | nil =>
      obtain ⟨rest, hnext, hrest, hregular⟩ := next_eq h stack
      rw [hp] at hnext hrest
      rw [formAfter_of_end hnext]
      exact ⟨Prod.ext rfl hrest, hregular⟩
  | cons t ts ih =>
      obtain ⟨rest, hnext, hrest, hregular⟩ := next_eq h stack
      rw [hp] at hnext hrest
      rw [formAfter_of_next hnext, Parser.form]
      cases Parser.feed stack t with
      | error e => exact ⟨Prod.ext rfl hrest, hregular⟩
      | ok progress =>
          cases progress with
          | done f => exact ⟨Prod.ext rfl hrest, hregular⟩
          | more stack => exact ih hregular stack (congrArg Tokens.ready hrest)

theorem form_eq (h : s.Regular) : Prod.map id tokens s.form = Parser.form none [] s.pending :=
  (formAfter_eq h []).1

theorem Regular.form (h : s.Regular) : s.form.2.Regular :=
  (formAfter_eq h []).2

theorem Regular.remaining (h : s.Regular) : s.remaining.2.Regular := by
  rw [remaining_eq h.failure_eq]
  exact regular_ofTokens []

theorem form_of_composes (h : s.Regular) {p rest : List Token} {f : Form}
    (hp : s.pending = p ++ rest) (hf : Composes p f) :
    s.form.1 = .ok f ∧ s.form.2.pending = rest := by
  have heq := form_eq h
  rw [hp, Parser.form_composes hf] at heq
  exact ⟨congrArg Prod.fst heq, congrArg (fun r => r.2.ready) heq⟩

theorem exists_composes_of_form (h : s.Regular) {f : Form} (hf : s.form.1 = .ok f) :
    ∃ p, s.pending = p ++ s.form.2.pending ∧ Composes p f := by
  have hform : Parser.form none [] s.pending = (.ok f, s.form.2.tokens) := by
    rw [← form_eq h]
    exact Prod.ext hf rfl
  obtain ⟨p, rest, hp, hf, hrest⟩ := Parser.form_eq_ok_iff_composes.mp hform
  obtain rfl : s.form.2.pending = rest := congrArg Tokens.ready hrest
  exact ⟨p, hp, hf⟩

/-- Also a form that cannot be read takes at least one token, if there is any. -/
theorem pending_form_suffix (h : s.Regular) : s.form.2.pending <:+ s.pending.tail := by
  have hrest : s.form.2.pending = (Parser.form none [] s.pending).2.ready := by
    rw [← form_eq h]
    rfl
  rw [hrest]
  exact Parser.ready_form_suffix [] s.pending

theorem forms_of_end {rest : TokenStream} (h : s.atEnd = (.ok true, rest)) :
    s.forms = ([], none, rest) := by
  rw [forms]
  split <;> simp_all

theorem forms_of_form {rest : TokenStream} (h : s.atEnd = (.ok false, rest)) :
    s.forms =
      match rest.form with
      | (.error e, later) => ([], some e, later)
      | (.ok f, later) => (f :: later.forms.1, later.forms.2) := by
  rw [forms]
  split <;> simp_all
  split <;> simp_all

theorem looked_of_atEnd (h : s.Regular) {b : Bool} {looked : TokenStream}
    (hend : s.atEnd = (.ok b, looked)) :
    s.pending.isEmpty = b ∧ looked.pending = s.pending ∧ looked.Regular := by
  rw [atEnd_eq h.failure_eq] at hend
  cases hend
  exact ⟨rfl, s.pending_peek, h.peek⟩

/-- All forms together are made of a beginning of the tokens. It ends at the end unless there is an
error. -/
theorem forms_composeAll (h : s.Regular) :
    ∃ ps rest, s.pending = ps ++ rest ∧ ComposeAll ps s.forms.1 ∧
      (s.forms.2.1 = none ↔ rest = []) ∧ s.forms.2.2.pending <:+ rest := by
  induction s using forms.induct with
  | case1 s e looked hend =>
      rw [atEnd_eq h.failure_eq] at hend
      cases hend
  | case2 s looked hend =>
      obtain ⟨hempty, hlooked, -⟩ := looked_of_atEnd h hend
      have hnil : s.pending = [] := List.isEmpty_iff.mp hempty
      rw [forms_of_end hend]
      refine ⟨[], [], hnil, .nil, by simp, ?_⟩
      rw [hlooked, hnil]
  | case3 s looked hend e later hform =>
      obtain ⟨hempty, hlooked, hregular⟩ := looked_of_atEnd h hend
      have hsuffix := (pending_form_suffix hregular).trans (List.tail_suffix looked.pending)
      rw [forms_of_form hend, hform]
      rw [hform, hlooked] at hsuffix
      refine ⟨[], s.pending, rfl, .nil, ?_, hsuffix⟩
      simpa using hempty
  | case4 s looked hend f later hform _ ih =>
      obtain ⟨-, hlooked, hregular⟩ := looked_of_atEnd h hend
      have hlater := hregular.form
      obtain ⟨p, hp, hf⟩ := exists_composes_of_form hregular (congrArg Prod.fst hform)
      rw [hform] at hlater hp
      obtain ⟨ps, rest, hps, hfs, herror, hsuffix⟩ := ih hlater
      rw [forms_of_form hend, hform]
      refine ⟨p ++ ps, rest, ?_, .cons hf hfs, herror, hsuffix⟩
      rw [← hlooked, hp, hps, List.append_assoc]

theorem length_forms_le (h : s.Regular) : s.forms.1.length ≤ s.pending.length := by
  obtain ⟨ps, rest, hp, hfs, -⟩ := forms_composeAll h
  have hlength := hfs.length_le
  rw [hp, List.length_append]
  omega

/-- What can be asked of a stream. -/
inductive Call where
  | peek
  | advance
  | atEnd
  | remaining
  | form

/-- The stream after a call, whatever the call has answered. -/
def Call.run : Call → TokenStream → TokenStream
  | .peek, s => s.peek.2
  | .advance, s => s.advance.2
  | .atEnd, s => s.atEnd.2
  | .remaining, s => s.remaining.2
  | .form, s => s.form.2

/-- The stream after one call after the other. -/
def after (s : TokenStream) (calls : List Call) : TokenStream :=
  calls.foldl (fun s call => call.run s) s

theorem Regular.run (h : s.Regular) (call : Call) : (call.run s).Regular := by
  cases call with
  | peek => exact h.peek
  | advance => exact h.advance
  | atEnd =>
      rw [Call.run, atEnd_eq h.failure_eq]
      exact h.peek
  | remaining => exact h.remaining
  | form => exact h.form

/-- A call takes tokens from the front and puts none back. -/
theorem pending_run_suffix (h : s.Regular) (call : Call) : (call.run s).pending <:+ s.pending := by
  cases call with
  | peek => rw [Call.run, s.pending_peek]
  | advance =>
      rw [Call.run, pending_advance h.failure_eq]
      exact List.tail_suffix s.pending
  | atEnd => rw [Call.run, s.pending_atEnd]
  | remaining =>
      rw [Call.run, remaining_eq h.failure_eq]
      exact List.nil_suffix
  | form => exact (pending_form_suffix h).trans (List.tail_suffix s.pending)

theorem after_regular (h : s.Regular) (calls : List Call) :
    (s.after calls).Regular ∧ (s.after calls).pending <:+ s.pending := by
  induction calls generalizing s with
  | nil => exact ⟨h, List.suffix_refl s.pending⟩
  | cons call calls ih =>
      obtain ⟨hregular, hsuffix⟩ := ih (h.run call)
      exact ⟨hregular, hsuffix.trans (pending_run_suffix h call)⟩

end TokenStream

open TokenStream

/-- Whatever has been called before, no call loses a token or gives one twice. Reading a form takes
the first token in any case, and just the tokens of the form if it succeeds; so the forms come to an
end. -/
theorem stream_accounts_for_every_token (ts : List Token) (calls : List Call) :
    let s := (ofTokens ⟨ts, none⟩).after calls
    s.buffer.length ≤ 1 ∧ s.pending <:+ ts ∧ (∀ call : Call, (call.run s).pending <:+ s.pending) ∧
    (s.peek.1 = .ok s.pending.head? ∧ s.peek.2.pending = s.pending ∧
      s.peek.2.advance.1 = s.peek.1) ∧
    (s.atEnd.1 = .ok s.pending.isEmpty ∧ s.atEnd.2.pending = s.pending) ∧
    (s.advance.1 = .ok s.pending.head? ∧ s.advance.2.pending = s.pending.tail) ∧
    (s.remaining.1 = .ok s.pending ∧ s.remaining.2.pending = []) ∧
    (s.form.2.pending <:+ s.pending.tail ∧
      (∀ f, s.form.1 = .ok f → ∃ p, s.pending = p ++ s.form.2.pending ∧ Composes p f) ∧
      ∀ p rest f, s.pending = p ++ rest → Composes p f →
        s.form.1 = .ok f ∧ s.form.2.pending = rest) ∧
    s.forms.1.length ≤ s.pending.length ∧
      ∃ ps rest, s.pending = ps ++ rest ∧ ComposeAll ps s.forms.1 ∧
        (s.forms.2.1 = none ↔ rest = []) ∧ s.forms.2.2.pending <:+ rest := by
  intro s
  obtain ⟨hs, hsuffix⟩ := after_regular (regular_ofTokens ts) calls
  have hpeek := peek_eq hs.failure_eq
  have hpending := s.pending_peek
  have hatEnd := atEnd_eq hs.failure_eq
  have hremaining := remaining_eq hs.failure_eq
  refine ⟨hs.length_le, hsuffix, pending_run_suffix hs, ⟨hpeek, hpending, ?_⟩,
    ⟨congrArg Prod.fst hatEnd, s.pending_atEnd⟩,
    ⟨advance_eq hs.failure_eq, pending_advance hs.failure_eq⟩,
    ⟨congrArg Prod.fst hremaining, congrArg (fun r => r.2.pending) hremaining⟩,
    ⟨pending_form_suffix hs, fun f => exists_composes_of_form hs,
      fun p rest f => form_of_composes hs⟩, length_forms_le hs, forms_composeAll hs⟩
  rw [advance_eq hs.peek.failure_eq, hpending]
  exact hpeek.symm

/-- A list that is looked at first, before a parenthesis too many. -/
theorem stream_accounts_for_every_token_list :
    let p : List Token := [⟨.lparen, ['(']⟩, ⟨.atom, "true".toList⟩, ⟨.rparen, [')']⟩]
    let rest : List Token := [⟨.rparen, [')']⟩, ⟨.quote, ['\'']⟩]
    let f : Form := .list [.boolean true]
    let s := (ofTokens ⟨p ++ rest, none⟩).after [.peek, .atEnd]
    s.pending = p ++ rest ∧ Composes p f ∧ s.form.1 = .ok f ∧ s.form.2.pending = rest ∧
      s.peek.2.advance.1 = .ok (some ⟨.lparen, ['(']⟩) ∧ s.forms.1.length ≤ 5 := by
  intro p rest f s
  have hpending : s.pending = p ++ rest := rfl
  have hf : Composes p f := .list rfl rfl (.cons (.atom rfl rfl) .nil)
  obtain ⟨-, -, -, ⟨hpeek, -, hnext⟩, -, -, -, ⟨-, -, hform⟩, hforms, -⟩ :=
    stream_accounts_for_every_token (p ++ rest) [.peek, .atEnd]
  obtain ⟨hread, hrest⟩ := hform p rest f hpending hf
  exact ⟨hpending, hf, hread, hrest, hnext.trans hpeek, hforms⟩

end Bakehouse
