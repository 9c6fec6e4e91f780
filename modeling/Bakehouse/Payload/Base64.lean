namespace Bakehouse.Base64

def symbol (n : Nat) : Char :=
  if n < 26 then Char.ofNat (65 + n)
  else if n < 52 then Char.ofNat (71 + n)
  else if n < 62 then Char.ofNat (n - 4)
  else if n == 62 then '+'
  else '/'

def symbolValue? (c : Char) : Option Nat :=
  if 'A' ≤ c && c ≤ 'Z' then some (c.toNat - 65)
  else if 'a' ≤ c && c ≤ 'z' then some (c.toNat - 71)
  else if '0' ≤ c && c ≤ '9' then some (c.toNat + 4)
  else if c == '+' then some 62
  else if c == '/' then some 63
  else none

/-- Three bytes make four symbols; one or two left over are padded. -/
def encode : List UInt8 → List Char
  | a :: b :: c :: rest =>
    let a := a.toNat
    let b := b.toNat
    let c := c.toNat
    symbol (a / 4) :: symbol (a % 4 * 16 + b / 16) :: symbol (b % 16 * 4 + c / 64) ::
      symbol (c % 64) :: encode rest
  | [a, b] =>
    let a := a.toNat
    let b := b.toNat
    [symbol (a / 4), symbol (a % 4 * 16 + b / 16), symbol (b % 16 * 4), '=']
  | [a] =>
    let a := a.toNat
    [symbol (a / 4), symbol (a % 4 * 16), '=', '=']
  | [] => []

inductive Fault where
  | notAscii
  | leadingPadding
  | excessData
  | foreignSymbol
  | brokenPadding
  | oneSymbolLeft (symbols : Nat)
  | incompletePadding
deriving Repr, DecidableEq

def Fault.message : Fault → String
  | notAscii => "string argument should contain only ASCII characters"
  | leadingPadding => "Leading padding not allowed"
  | excessData => "Excess data after padding"
  | foreignSymbol => "Only base64 data is allowed"
  | brokenPadding => "Discontinuous padding not allowed"
  | oneSymbolLeft n =>
    s!"Invalid base64-encoded string: number of data characters ({n}) " ++
      "cannot be 1 more than a multiple of 4"
  | incompletePadding => "Incorrect padding"

/-- Where the decoder stands: the symbols of the current group of four (`place` of them, worth
`carry` bits not yet written out), the padding seen since the last symbol, whether there was any
padding, and the bytes written. -/
structure State where
  place : Nat
  carry : Nat
  pads : Nat
  padded : Bool
  bytes : List UInt8
deriving Repr

def State.initial : State := ⟨0, 0, 0, false, []⟩

/-- Takes up the six bits of a symbol. -/
def State.push (s : State) (v : Nat) : State :=
  let emit (n : Nat) := s.bytes ++ [UInt8.ofNat n]
  match s.place with
  | 0 => { s with place := 1, carry := v, pads := 0 }
  | 1 => { s with place := 2, carry := v % 16, pads := 0, bytes := emit (s.carry * 4 + v / 16) }
  | 2 => { s with place := 3, carry := v % 4, pads := 0, bytes := emit (s.carry * 16 + v / 4) }
  | _ => { s with place := 0, carry := 0, pads := 0, bytes := emit (s.carry * 64 + v) }

def State.finish (s : State) : Except Fault (List UInt8) :=
  if s.place == 0 then .ok s.bytes
  else if s.place == 1 then .error (.oneSymbolLeft (s.bytes.length / 3 * 4 + 1))
  else .error .incompletePadding

def run : State → List Char → Except Fault (List UInt8)
  | s, [] => s.finish
  | s, '=' :: cs =>
    if 2 ≤ s.place then
      if 4 ≤ s.place + (s.pads + 1) then
        if cs.isEmpty then .ok s.bytes else .error .excessData
      else
        run { s with pads := s.pads + 1, padded := true } cs
    else
      run { s with padded := true } cs
  | s, c :: cs =>
    match symbolValue? c with
    | none => .error .foreignSymbol
    | some v => if s.padded then .error .brokenPadding else run (s.push v) cs

def decode (cs : List Char) : Except Fault (List UInt8) :=
  if cs.any fun c => 128 ≤ c.toNat then .error .notAscii
  else if cs.head? == some '=' then .error .leadingPadding
  else run .initial cs

end Bakehouse.Base64
