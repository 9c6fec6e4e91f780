namespace Bakehouse.Number

/-- The value `± significand · 2 ^ exponent`. -/
structure Binary where
  negative : Bool
  significand : Nat
  exponent : Int
deriving Repr, DecidableEq

inductive Kind where
  | nan
  | infinite (negative : Bool)
  | finite (value : Binary)
deriving Repr, DecidableEq

/-- Reads sign, exponent field and fraction field off the 64 bits of a number. -/
def kind (x : Float) : Kind :=
  let bits : Nat := x.toBits.toNat
  let negative := bits / Nat.pow 2 63 == 1
  let field : Nat := bits / Nat.pow 2 52 % 2048
  let fraction : Nat := bits % Nat.pow 2 52
  if field == 2047 then
    if fraction == 0 then .infinite negative else .nan
  else if field == 0 then
    .finite ⟨negative, fraction, -1074⟩
  else
    .finite ⟨negative, Nat.pow 2 52 + fraction, (field : Int) - 1075⟩

/-- The absolute value as a quotient of natural numbers. -/
def Binary.ratio (b : Binary) : Nat × Nat :=
  if 0 ≤ b.exponent then (b.significand * Nat.pow 2 b.exponent.toNat, 1)
  else (b.significand, Nat.pow 2 (-b.exponent).toNat)

def Binary.isWhole (b : Binary) : Bool :=
  b.ratio.1 % b.ratio.2 == 0

/-- The value cut off toward zero. -/
def Binary.truncate (b : Binary) : Int :=
  let n : Int := (b.ratio.1 / b.ratio.2 : Nat)
  if b.negative then -n else n

/-- A finite number cut off toward zero; other numbers have no integer part. -/
def truncate? (x : Float) : Option Int :=
  match kind x with
  | .finite b => some b.truncate
  | _ => none

def isFinite (x : Float) : Bool :=
  (truncate? x).isSome

end Bakehouse.Number
