import Bakehouse.Operation.Fault
import Bakehouse.Payload.Basic

namespace Bakehouse

inductive Dish where
  | good (payload : Payload)
  | failed (fault : Fault)
deriving Repr, DecidableEq

namespace Dish

/-- A dish is made from a payload or from the message of a fault, and not from both. -/
def make (payload : Option Payload) (message : Option String) : Except Escape Dish :=
  match payload, message with
  | some p, none => .ok (good p)
  | none, some m => .ok (failed (.custom m))
  | _, _ => .error .dishContent

def isGood : Dish → Bool
  | good _ => true
  | failed _ => false

/-- Two dishes are equal when both are good and hold the same payload. -/
def same : Dish → Dish → Bool
  | good p, good q => p == q
  | _, _ => false

def display : Dish → String
  | good p => "Dish(" ++ p.shown ++ ")"
  | failed f => "error: " ++ f.shown

def inspect : Dish → String
  | good p => "Dish(" ++ p.inspect ++ ")"
  | failed f => "Dish(error=" ++ Text.quoted f.message ++ ")"

/-- The bare payload, or the bare message of the fault. -/
def print : Dish → String
  | good p => p.shown
  | failed f => f.message

/-- A failed dish is never empty. -/
def isEmpty : Dish → Bool
  | good p => p.bytes.isEmpty
  | failed _ => false

/-- Runs a transformation on a good dish. A fault spoils it; a spoilt dish is left alone. -/
def apply (run : Payload → Except Trouble Payload) : Dish → Except Escape Dish
  | failed f => .ok (failed f)
  | good p =>
    match run p with
    | .ok q => .ok (good q)
    | .error (.fault f) => .ok (failed f)
    | .error (.escape e) => .error e

end Dish

end Bakehouse
