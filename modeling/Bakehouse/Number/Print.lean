import Bakehouse.Number.Shortest

namespace Bakehouse.Number

/-- A leading digit with a power of ten from `positionalFrom` up to (and without) `positionalBelow`
is written positionally, any other with an exponent. -/
def positionalFrom : Int := -4

def positionalBelow : Int := 16

def digitChars (n : Nat) : List Char :=
  Nat.toDigits 10 n

/-- Digits without the zeros at the end. -/
def dropTrailingZeros (ds : List Char) : List Char :=
  (ds.reverse.dropWhile (· == '0')).reverse

/-- `point` digits stand before the decimal point; a fraction is always written. -/
def positional (ds : List Char) (point : Int) : List Char :=
  if point ≤ 0 then
    ['0', '.'] ++ List.replicate (-point).toNat '0' ++ ds
  else if ds.length ≤ point.toNat then
    ds ++ List.replicate (point.toNat - ds.length) '0' ++ ['.', '0']
  else
    ds.take point.toNat ++ ['.'] ++ ds.drop point.toNat

/-- One digit before the point, no point without a fraction, a signed exponent of two digits or
more. -/
def scientific (ds : List Char) (lead : Int) : List Char :=
  let mantissa :=
    match ds with
    | d :: e :: rest => d :: '.' :: e :: rest
    | _ => ds
  let size := digitChars lead.natAbs
  let size := if size.length < 2 then '0' :: size else size
  mantissa ++ ['e', if lead < 0 then '-' else '+'] ++ size

/-- The digits of a finite number other than zero. -/
def Decimal.render (d : Decimal) : List Char :=
  let all := digitChars d.digits
  let lead := (all.length : Int) + d.exponent - 1
  let ds := dropTrailingZeros all
  if positionalFrom ≤ lead ∧ lead < positionalBelow then positional ds (lead + 1)
  else scientific ds lead

def Binary.render (b : Binary) : List Char :=
  let text := if b.significand == 0 then ['0', '.', '0'] else (shortest b).render
  if b.negative then '-' :: text else text

def infinity (negative : Bool) : String :=
  if negative then "-inf" else "inf"

def inspect (x : Float) : String :=
  match kind x with
  | .nan => "nan"
  | .infinite negative => infinity negative
  | .finite b => String.ofList b.render

def integerText (n : Int) : String :=
  if n < 0 then "-" ++ String.ofList (digitChars n.natAbs)
  else String.ofList (digitChars n.natAbs)

/-- Whole numbers below `10 ^ 16` are written as integers, zero without a sign. -/
def display (x : Float) : String :=
  match kind x with
  | .nan => "NaN"
  | .infinite negative => infinity negative
  | .finite b =>
    if b.isWhole && b.truncate.natAbs < Nat.pow 10 16 then integerText b.truncate
    else String.ofList b.render

end Bakehouse.Number
