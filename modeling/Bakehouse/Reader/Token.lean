import Bakehouse.Escape
import Bakehouse.Text.Quoted

namespace Bakehouse

/-- Literals that are enclosed by a pair of characters. -/
inductive Enclosure where
  | text
  | dishText
  | dishBytes
  | vector
deriving Repr, DecidableEq

/-- The character that ends the literal. -/
def Enclosure.close : Enclosure → Char
  | text | dishText => '"'
  | dishBytes | vector => ']'

namespace Token

/-- Tokens from elsewhere may carry a label that this reader does not know. -/
inductive Kind where
  | quote
  | lparen
  | rparen
  | literal (enclosure : Enclosure)
  | atom
  | other (label : String)
deriving Repr, DecidableEq

def Kind.label : Kind → String
  | quote => "quote"
  | lparen => "lparen"
  | rparen => "rparen"
  | literal .text => "string"
  | literal .dishText => "dish_string"
  | literal .dishBytes => "dish_bytes"
  | literal .vector => "vector"
  | atom => "atom"
  | other label => label

def Kind.ofLabel (label : String) : Kind :=
  let known : List Kind :=
    [quote, lparen, rparen, literal .text, literal .dishText, literal .dishBytes, literal .vector,
      atom]
  (known.find? (·.label == label)).getD (other label)

end Token

structure Token where
  kind : Token.Kind
  text : List Char
deriving Repr, DecidableEq

inductive ReadError where
  | unterminated (literal : Enclosure)
  | unexpectedCharacter (c : Char) (place : Nat)
  | invalidByte (item : List Char) (literal : Enclosure)
  | invalidNumber (token : List Char)
  | emptyAtom
  | unexpectedEnd
  | unclosed
  | unexpectedClose
  | quoteAtEnd
  | unknownToken (token : Token)
  | trailing (token : Token)
  | escape (e : Escape)
deriving Repr, DecidableEq

def ReadError.message : ReadError → String
  | unterminated .text => "unterminated string, expected '\"'"
  | unterminated .dishText => "unterminated dish literal"
  | unterminated .dishBytes => "unterminated byte literal, expected ']'"
  | unterminated .vector => "unterminated vector literal, expected ']'"
  | unexpectedCharacter c place =>
    "unexpected character " ++ Text.quoted (String.ofList [c]) ++ s!" at {place}"
  | invalidByte item literal =>
    "invalid byte '" ++ String.ofList item ++ "' in " ++
      (if literal = .vector then "vector literal" else "dish literal")
  | invalidNumber token => "invalid number '" ++ String.ofList token ++ "'"
  | emptyAtom => "string index out of range"
  | unexpectedEnd => "unexpected end of input"
  | unclosed => "unclosed parenthesis"
  | unexpectedClose => "unexpected ')'"
  | quoteAtEnd => "expected expression after quote"
  | unknownToken token => "unknown token: " ++ token.kind.label ++ " " ++ String.ofList token.text
  | trailing token =>
    "unexpected input after expression: " ++ Text.quoted (String.ofList token.text)
  | escape e => e.message

/-- Tokens that are read on demand: those that can still be read, and the error that comes after the
last of them. The error is reported once; after it the tokens are at an end. -/
structure Tokens where
  ready : List Token
  failure : Option ReadError
deriving Repr, DecidableEq

end Bakehouse
