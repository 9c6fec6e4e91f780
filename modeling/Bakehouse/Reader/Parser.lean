import Bakehouse.Reader.Form
import Bakehouse.Reader.Lexer

namespace Bakehouse

namespace Parser

/-- A list whose items so far are known (the last one first), or a quote that waits for its form. -/
inductive Unfinished where
  | list (reversed : List Form)
  | quote

inductive Progress where
  | done (f : Form)
  | more (stack : List Unfinished)

/-- Hands a complete form to the stack. -/
def complete : List Unfinished → Form → Progress
  | [], f => .done f
  | .quote :: stack, f => complete stack f.quoted
  | .list reversed :: stack, f => .more (.list (f :: reversed) :: stack)

def feed (stack : List Unfinished) (t : Token) : Except ReadError Progress :=
  match t.kind with
  | .lparen => .ok (.more (.list [] :: stack))
  | .rparen =>
    match stack with
    | .list reversed :: rest => .ok (complete rest (.list reversed.reverse))
    | _ => .error .unexpectedClose
  | .quote => .ok (.more (.quote :: stack))
  | .literal enclosure => (Form.ofLiteral enclosure t.text).map (complete stack)
  | .atom => (Form.ofAtom t.text).map (complete stack)
  | .other _ => .error (.unknownToken t)

/-- What is missing when the tokens end. -/
def missing : List Unfinished → ReadError
  | [] => .unexpectedEnd
  | .quote :: _ => .quoteAtEnd
  | .list _ :: _ => .unclosed

/-- One form, and the tokens after it. On an error the tokens read so far are gone. -/
def form (failure : Option ReadError) : List Unfinished → List Token → Except ReadError Form × Tokens
  | stack, [] => (.error (failure.getD (missing stack)), ⟨[], none⟩)
  | stack, t :: ts =>
    match feed stack t with
    | .error e => (.error e, ⟨ts, failure⟩)
    | .ok (.done f) => (.ok f, ⟨ts, failure⟩)
    | .ok (.more stack) => form failure stack ts

/-- Forms up to the end or to the first error, and the tokens that are left. -/
structure Forms where
  forms : List Form
  error : Option ReadError
  rest : Tokens

def forms (failure : Option ReadError) : List Unfinished → List Token → Forms
  | stack, [] =>
    let error :=
      match failure, stack with
      | none, [] => none
      | none, top :: below => some (missing (top :: below))
      | some e, _ => some e
    ⟨[], error, ⟨[], none⟩⟩
  | stack, t :: ts =>
    match feed stack t with
    | .error e => ⟨[], some e, ⟨ts, failure⟩⟩
    | .ok (.done f) =>
      let later := forms failure [] ts
      { later with forms := f :: later.forms }
    | .ok (.more stack) => forms failure stack ts

end Parser

namespace Tokens

def form (ts : Tokens) : Except ReadError Form × Tokens :=
  Parser.form ts.failure [] ts.ready

def forms (ts : Tokens) : Parser.Forms :=
  Parser.forms ts.failure [] ts.ready

/-- All tokens, unless an error comes after them. -/
def drain (ts : Tokens) : Except ReadError (List Token) :=
  match ts.failure with
  | some e => .error e
  | none => .ok ts.ready

/-- One form and the tokens that follow it, which have to be readable as tokens. -/
def parse (ts : Tokens) : Except ReadError (Form × List Token) :=
  match ts.form with
  | (.error e, _) => .error e
  | (.ok f, rest) => rest.drain.map fun tokens => (f, tokens)

end Tokens

/-- The one form that a text spells. -/
def read (source : String) : Except ReadError Form :=
  match (lex source).parse with
  | .error e => .error e
  | .ok (f, []) => .ok f
  | .ok (_, t :: _) => .error (.trailing t)

/-- The forms of a text, up to the first error. -/
def readAll (source : String) : List Form × Option ReadError :=
  let r := (lex source).forms
  (r.forms, r.error)

end Bakehouse
