import Bakehouse.Number.Binary

/-!
The shortest decimal that reads back as a given number. A decimal reads back when it lies in the
interval of reals that round to the number; of the decimals with the fewest digits the nearest one is
taken.
-/

namespace Bakehouse.Number

/-- The value `digits · 10 ^ exponent`. -/
structure Decimal where
  digits : Nat
  exponent : Int
deriving Repr, DecidableEq

/-- The reals that round to a number, scaled by `2 / unit` so that all ends are whole: `center` is
the number itself, and the ends belong to the interval when `closed`. -/
structure Interval where
  low : Nat
  center : Nat
  high : Nat
  scale : Int
  closed : Bool

/-- The neighbours of `m · 2 ^ q` are one unit away, except that the one below a power of two is half
a unit away (unless the exponent is the least one). In quarters of a unit all of this is whole. -/
def Binary.interval (b : Binary) : Interval :=
  let m := b.significand
  let narrow := m == Nat.pow 2 52 && b.exponent != -1074
  { low := if narrow then 4 * m - 1 else 4 * m - 2
    center := 4 * m
    high := 4 * m + 2
    scale := b.exponent - 2
    closed := m % 2 == 0 }

/-- `n · 2 ^ scale / 10 ^ k` as a quotient of natural numbers. -/
def scaled (n : Nat) (scale k : Int) : Nat × Nat :=
  (n * Nat.pow 2 scale.toNat * Nat.pow 10 (-k).toNat,
    Nat.pow 2 (-scale).toNat * Nat.pow 10 k.toNat)

/-- Whether `d · 10 ^ k` lies in the interval. -/
def Interval.holds (i : Interval) (k : Int) (d : Nat) : Bool :=
  let (lowNum, lowDen) := scaled i.low i.scale k
  let (highNum, highDen) := scaled i.high i.scale k
  if i.closed then lowNum ≤ d * lowDen && d * highDen ≤ highNum
  else lowNum < d * lowDen && d * highDen < highNum

/-- The point of the grid `10 ^ k` that stands for the interval, if it has one: of the two grid
neighbours of the center, the one that lies in the interval, and the nearer one if both do. A tie
goes to the even neighbour. -/
def Interval.onGrid? (i : Interval) (k : Int) : Option Nat :=
  let (num, den) := scaled i.center i.scale k
  let below := num / den
  let twice := 2 * (num % den)
  let nearAbove := den < twice || (twice == den && below % 2 == 1)
  match i.holds k below, i.holds k (below + 1) with
  | true, true => some (if nearAbove then below + 1 else below)
  | true, false => some below
  | false, true => some (below + 1)
  | false, false => none

def digitCount (n : Nat) : Nat :=
  (Nat.toDigits 10 n).length

/-- The power of ten of the leading digit of `num / den`, both positive. -/
def leadingExponent (num den : Nat) : Int :=
  if den ≤ num then
    (digitCount (num / den) : Int) - 1
  else
    -- `num · 10 ^ guess` has as many digits as `den`
    let guess := digitCount den - digitCount num
    if den ≤ num * Nat.pow 10 guess then -(guess : Int) else -((guess : Int) + 1)

/-- Tries grids with ever more digits, `left` of them. -/
def Interval.search (i : Interval) (lead : Int) : (left tried : Nat) → Decimal
  | 0, tried => ⟨0, lead - tried⟩
  | left + 1, tried =>
    let k := lead - tried
    match i.onGrid? k with
    | some d => ⟨d, k⟩
    | none => i.search lead left (tried + 1)

/-- Seventeen digits always suffice. -/
def shortest (b : Binary) : Decimal :=
  if b.significand == 0 then
    ⟨0, 0⟩
  else
    b.interval.search (leadingExponent b.ratio.1 b.ratio.2) 17 0

end Bakehouse.Number
