import Bakehouse.Reader.Parser

namespace Bakehouse

structure TokenStream where
  buffer : List Token
  source : Tokens

namespace TokenStream

def ofTokens (ts : Tokens) : TokenStream := ⟨[], ts⟩

/-- The tokens that are still to come. -/
def pending (s : TokenStream) : List Token :=
  s.buffer ++ s.source.ready

/-- The next token of the source; an error is reported once. -/
def pull (ts : Tokens) : Except ReadError (Option Token) × Tokens :=
  match ts.ready, ts.failure with
  | t :: rest, _ => (.ok (some t), { ts with ready := rest })
  | [], some e => (.error e, ⟨[], none⟩)
  | [], none => (.ok none, ts)

/-- The next token without taking it; `none` at the end. -/
def peek (s : TokenStream) : Except ReadError (Option Token) × TokenStream :=
  match s.buffer with
  | t :: _ => (.ok (some t), s)
  | [] =>
    match pull s.source with
    | (.ok token, source) => (.ok token, ⟨token.toList, source⟩)
    | (.error e, source) => (.error e, ⟨[], source⟩)

def advance (s : TokenStream) : Except ReadError (Option Token) × TokenStream :=
  match s.buffer with
  | t :: rest => (.ok (some t), { s with buffer := rest })
  | [] =>
    match pull s.source with
    | (token, source) => (token, ⟨[], source⟩)

def atEnd (s : TokenStream) : Except ReadError Bool × TokenStream :=
  match s.peek with
  | (.ok token, t) => (.ok token.isNone, t)
  | (.error e, t) => (.error e, t)

/-- All tokens to the end. An error on the way loses what the source had, but not what has been
looked at. -/
def remaining (s : TokenStream) : Except ReadError (List Token) × TokenStream :=
  match s.source.drain with
  | .ok tokens => (.ok (s.buffer ++ tokens), ⟨[], ⟨[], none⟩⟩)
  | .error e => (.error e, ⟨s.buffer, ⟨[], none⟩⟩)

/-- The next token of a form. Inside a list or behind a quote it is looked at before it is taken. -/
def next (stack : List Parser.Unfinished) (s : TokenStream) :
    Except ReadError (Option Token) × TokenStream :=
  match stack with
  | [] => s.advance
  | _ :: _ =>
    match s.peek with
    | (.ok (some _), looked) => looked.advance
    | (.ok none, looked) => (.ok none, looked)
    | (.error e, looked) => (.error e, looked)

theorem pending_peek (s : TokenStream) : s.peek.2.pending = s.pending := by
  rcases s with ⟨_ | ⟨t, rest⟩, ⟨_ | ⟨u, ready⟩, _ | e⟩⟩ <;> rfl

theorem pending_of_advance {s rest : TokenStream} {t : Token}
    (h : s.advance = (.ok (some t), rest)) : s.pending = t :: rest.pending := by
  rcases s with ⟨_ | ⟨u, buffer⟩, ⟨_ | ⟨u, ready⟩, _ | e⟩⟩ <;> cases h <;> rfl

theorem pending_of_next {stack : List Parser.Unfinished} {s rest : TokenStream} {t : Token}
    (h : s.next stack = (.ok (some t), rest)) : s.pending = t :: rest.pending := by
  cases stack with
  | nil => exact pending_of_advance h
  | cons top below =>
      rw [← s.pending_peek]
      rw [next] at h
      split at h
      · rename_i looked hpeek
        rw [hpeek]
        exact pending_of_advance h
      · cases h
      · cases h

theorem length_lt_of_next {stack : List Parser.Unfinished} {s rest : TokenStream} {t : Token}
    (h : s.next stack = (.ok (some t), rest)) : rest.pending.length < s.pending.length := by
  rw [pending_of_next h]
  exact Nat.lt_succ_self _

/-- The form that completes `stack`. -/
def formAfter (stack : List Parser.Unfinished) (s : TokenStream) :
    Except ReadError Form × TokenStream :=
  match _ : s.next stack with
  | (.error e, rest) => (.error e, rest)
  | (.ok none, rest) => (.error (Parser.missing stack), rest)
  | (.ok (some t), rest) =>
    match Parser.feed stack t with
    | .error e => (.error e, rest)
    | .ok (.done f) => (.ok f, rest)
    | .ok (.more stack) => formAfter stack rest
termination_by s.pending.length
decreasing_by exact length_lt_of_next ‹_›

def form (s : TokenStream) : Except ReadError Form × TokenStream :=
  s.formAfter []

theorem pending_atEnd (s : TokenStream) : s.atEnd.2.pending = s.pending := by
  rw [atEnd, ← s.pending_peek]
  split <;> rename_i hpeek <;> rw [hpeek]

theorem formAfter_of_next {stack : List Parser.Unfinished} {s rest : TokenStream} {t : Token}
    (h : s.next stack = (.ok (some t), rest)) :
    s.formAfter stack =
      match Parser.feed stack t with
      | .error e => (.error e, rest)
      | .ok (.done f) => (.ok f, rest)
      | .ok (.more stack) => rest.formAfter stack := by
  rw [formAfter]
  split <;> simp_all

theorem length_lt_of_formAfter {stack : List Parser.Unfinished} {s rest : TokenStream} {f : Form}
    (h : s.formAfter stack = (.ok f, rest)) : rest.pending.length < s.pending.length := by
  induction stack, s using formAfter.induct with
  | case1 stack s e later hnext | case2 stack s later hnext =>
      rw [formAfter] at h
      split at h <;> simp_all
  | case3 stack s t later hnext e hfeed =>
      rw [formAfter_of_next hnext, hfeed] at h
      cases h
  | case4 stack s t later hnext g hfeed =>
      rw [formAfter_of_next hnext, hfeed] at h
      cases h
      exact length_lt_of_next hnext
  | case5 stack s t later hnext stack' hfeed ih =>
      rw [formAfter_of_next hnext, hfeed] at h
      exact Nat.lt_trans (ih h) (length_lt_of_next hnext)

/-- Every form to the end or to the first error. -/
def forms (s : TokenStream) : List Form × Option ReadError × TokenStream :=
  match hend : s.atEnd with
  | (.error e, rest) => ([], some e, rest)
  | (.ok true, rest) => ([], none, rest)
  | (.ok false, rest) =>
    match hform : rest.form with
    | (.error e, rest) => ([], some e, rest)
    | (.ok f, rest') =>
      have : rest'.pending.length < s.pending.length := by
        rw [← s.pending_atEnd, hend]
        exact length_lt_of_formAfter hform
      let later := forms rest'
      (f :: later.1, later.2)
termination_by s.pending.length

end TokenStream

end Bakehouse
