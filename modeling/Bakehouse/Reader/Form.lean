import Bakehouse.Number.Literal
import Bakehouse.Payload.Basic
import Bakehouse.Payload.Numeral
import Bakehouse.Reader.Token
import Bakehouse.Symbol
import Bakehouse.Text.Blank
import Bakehouse.Text.Digit
import Bakehouse.Text.Letter

namespace Bakehouse

/-- What a program text spells. A dish literal becomes a dish of its own when the form is taken up for
evaluation. -/
inductive Form where
  | number (x : Float)
  | boolean (b : Bool)
  | text (s : String)
  | symbol (s : Symbol)
  | list (items : List Form)
  | dish (payload : Payload)

namespace Form

/-- `'x` is short for `(quote x)`. -/
def quoted (f : Form) : Form :=
  list [symbol .quote, f]

/-- A bare word: a truth value, a number, or a symbol. A word that starts with a digit has to be a
number. -/
def ofAtom (cs : List Char) : Except ReadError Form :=
  if cs = "true".toList then .ok (boolean true)
  else if cs = "false".toList then .ok (boolean false)
  else
    match Number.literal? cs with
    | some l => .ok (number l.value)
    | none =>
      match cs with
      | [] => .error .emptyAtom
      | c :: rest =>
        if Text.isDigit c then .error (.invalidNumber cs) else .ok (symbol (.ofChars c rest))

/-- One byte value, written with ASCII digits. -/
def byte (literal : Enclosure) (item : List Char) : Except ReadError UInt8 :=
  if item.isEmpty || !item.all Text.isAsciiDigit then
    .error (.invalidByte item literal)
  else if Numeral.maxDigits < item.length then
    .error (.escape (.tooManyDigits item.length))
  else
    let n := Numeral.value 10 (item.map fun c => c.toNat - 48)
    if 255 < n then .error (.invalidByte item literal) else .ok (UInt8.ofNat n)

def isByteSeparator (c : Char) : Bool :=
  Text.isBlank c || c == ','

/-- Byte values separated by blanks and commas. -/
def bytes (literal : Enclosure) (cs : List Char) : Except ReadError (List UInt8) :=
  match Text.strip cs with
  | [] => .ok []
  | c :: rest => (Text.fields isByteSeparator (c :: rest)).mapM (byte literal)

/-- What stands inside a literal that opens with `size` characters. -/
def inside (size : Nat) (cs : List Char) : List Char :=
  (cs.drop size).dropLast

def ofLiteral (enclosure : Enclosure) (cs : List Char) : Except ReadError Form :=
  match enclosure with
  | .text => .ok (text (String.ofList (inside 1 cs)))
  | .dishText => .ok (dish (.text (String.ofList (inside 2 cs))))
  | .dishBytes => (bytes enclosure (inside 2 cs)).map fun bs => dish (.binary bs)
  | .vector =>
    (bytes enclosure (inside 1 cs)).map fun bs => list (bs.map fun b => number (Float.ofNat b.toNat))

end Form

end Bakehouse
