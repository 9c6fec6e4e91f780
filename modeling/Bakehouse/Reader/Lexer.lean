import Bakehouse.Reader.Token
import Bakehouse.Text.Blank

/-!
The lexer reads one character at a time. Its state says what the characters since the last complete
token amount to, so that reading a text is a run through states and reading two texts in a row is two
such runs.
-/

namespace Bakehouse

namespace Lexer

/-- Characters that end an atom, other than blanks. -/
def isBracket (c : Char) : Bool :=
  c == '(' || c == ')' || c == '[' || c == ']' || c == '\'' || c == '"' || c == ';'

def isDelimiter (c : Char) : Bool :=
  Text.isBlank c || isBracket c

/-- Where the lexer stands: between tokens, in a comment, after a `d` that may start a dish literal,
in an atom, or in a literal. Texts are kept with the last character first. -/
inductive State where
  | gap
  | comment
  | letter
  | atom (reversed : List Char)
  | literal (enclosure : Enclosure) (reversed : List Char)
deriving Repr, DecidableEq

/-- The tokens that a character completes, and the state after it. -/
structure Step where
  tokens : List Token
  next : Except ReadError State

/-- A character between tokens; `place` is its place in the text. -/
def start (place : Nat) (c : Char) : Step :=
  if Text.isBlank c then ⟨[], .ok .gap⟩
  else if c == ';' then ⟨[], .ok .comment⟩
  else if c == '\'' then ⟨[⟨.quote, [c]⟩], .ok .gap⟩
  else if c == '(' then ⟨[⟨.lparen, [c]⟩], .ok .gap⟩
  else if c == ')' then ⟨[⟨.rparen, [c]⟩], .ok .gap⟩
  else if c == '[' then ⟨[], .ok (.literal .vector [c])⟩
  else if c == '"' then ⟨[], .ok (.literal .text [c])⟩
  else if c == ']' then ⟨[], .error (.unexpectedCharacter c place)⟩
  else if c == 'd' then ⟨[], .ok .letter⟩
  else ⟨[], .ok (.atom [c])⟩

def atomToken (reversed : List Char) : Token :=
  ⟨.atom, reversed.reverse⟩

/-- A character after an unfinished atom. -/
def continueAtom (place : Nat) (reversed : List Char) (c : Char) : Step :=
  if isDelimiter c then
    let s := start place c
    ⟨atomToken reversed :: s.tokens, s.next⟩
  else
    ⟨[], .ok (.atom (c :: reversed))⟩

def step (place : Nat) (c : Char) : State → Step
  | .gap => start place c
  | .comment => ⟨[], .ok (if c == '\n' then .gap else .comment)⟩
  | .letter =>
    if c == '"' then ⟨[], .ok (.literal .dishText [c, 'd'])⟩
    else if c == '[' then ⟨[], .ok (.literal .dishBytes [c, 'd'])⟩
    else continueAtom place ['d'] c
  | .atom reversed => continueAtom place reversed c
  | .literal enclosure reversed =>
    if c == enclosure.close then ⟨[⟨.literal enclosure, (c :: reversed).reverse⟩], .ok .gap⟩
    else ⟨[], .ok (.literal enclosure (c :: reversed))⟩

/-- What the end of the text makes of a state. -/
def finish : State → Tokens
  | .gap | .comment => ⟨[], none⟩
  | .letter => ⟨[atomToken ['d']], none⟩
  | .atom reversed => ⟨[atomToken reversed], none⟩
  | .literal enclosure _ => ⟨[], some (.unterminated enclosure)⟩

def run : Nat → State → List Char → Tokens
  | _, state, [] => finish state
  | place, state, c :: cs =>
    let s := step place c state
    match s.next with
    | .error e => ⟨s.tokens, some e⟩
    | .ok next =>
      let rest := run (place + 1) next cs
      ⟨s.tokens ++ rest.ready, rest.failure⟩

end Lexer

/-- The tokens of a text. -/
def lex (source : String) : Tokens :=
  Lexer.run 0 .gap source.toList

end Bakehouse
