import Bakehouse.Text.Digit

namespace Bakehouse.Number

open Bakehouse.Text

/-- The value of a run of decimal digits, most significant first. -/
def digitsValue (ds : List Nat) : Nat :=
  ds.foldl (fun value d => 10 * value + d) 0

structure Literal where
  negative : Bool
  whole : List Nat
  fraction : List Nat
deriving Repr, DecidableEq

/-- A run of one digit or more that takes up the whole text. -/
def digitRun? (cs : List Char) : Option (List Nat) :=
  if cs.isEmpty then none else cs.mapM digitValue?

def unsigned? (negative : Bool) (cs : List Char) : Option Literal :=
  let whole := cs.takeWhile isDecimalDigit
  match cs.dropWhile isDecimalDigit with
  | [] => (digitRun? whole).map fun ds => ⟨negative, ds, []⟩
  | '.' :: fraction => do
    let ds ← digitRun? whole
    let fs ← digitRun? fraction
    return ⟨negative, ds, fs⟩
  | _ => none

def literal? : List Char → Option Literal
  | '-' :: cs => unsigned? true cs
  | cs => unsigned? false cs

/-- The nearest floating point number. -/
def Literal.value (l : Literal) : Float :=
  let x := Float.ofScientific (digitsValue (l.whole ++ l.fraction)) true l.fraction.length
  if l.negative then -x else x

end Bakehouse.Number
