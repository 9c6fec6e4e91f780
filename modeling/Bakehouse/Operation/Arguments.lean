import Bakehouse.Number.Print
import Bakehouse.Operation.Fault
import Bakehouse.Text.Quoted

namespace Bakehouse

inductive ArgumentType where
  | integer
  | text
deriving Repr, DecidableEq

def ArgumentType.name : ArgumentType → String
  | integer => "integer"
  | text => "string"

/-- A truth value counts as the integer zero or one, in its own spelling. -/
inductive Argument where
  | integer (value : Int)
  | flag (value : Bool)
  | text (value : String)
deriving Repr, DecidableEq

def Argument.inspect : Argument → String
  | integer n => Number.integerText n
  | flag b => if b then "True" else "False"
  | text s => Text.quoted s

/-- Arguments in the order in which they were given, no name twice. -/
structure Arguments where
  entries : List (String × Argument)
deriving Repr, DecidableEq

namespace Arguments

def empty : Arguments := ⟨[]⟩

def get (bag : Arguments) (name : String) : Except Fault Argument :=
  match bag.entries.lookup name with
  | some a => .ok a
  | none => .error (.missingArgument name)

def integer (bag : Arguments) (name : String) : Except Fault Int := do
  match ← bag.get name with
  | .integer n => return n
  | .flag b => return if b then 1 else 0
  | .text _ => throw .integerExpected

theorem get_of_integer {bag : Arguments} {name : String} {n : Int} (h : bag.integer name = .ok n) :
    ∃ a, bag.get name = .ok a := by
  cases hget : bag.get name with
  | ok a => exact ⟨a, rfl⟩
  | error f =>
      rw [integer, hget] at h
      cases h

def text (bag : Arguments) (name : String) : Except Fault String := do
  match ← bag.get name with
  | .text s => return s
  | _ => throw .textExpected

def contains (bag : Arguments) (name : String) : Bool :=
  (bag.entries.lookup name).isSome

def size (bag : Arguments) : Nat :=
  bag.entries.length

/-- Adds an argument; a name that is already there keeps its place and takes the new value. -/
def insert (bag : Arguments) (name : String) (a : Argument) : Arguments :=
  if bag.contains name then
    ⟨bag.entries.map fun e => if e.1 == name then (name, a) else e⟩
  else
    ⟨bag.entries ++ [(name, a)]⟩

def inspect (bag : Arguments) : String :=
  let entries := bag.entries.map fun e => Text.quoted e.1 ++ ": " ++ e.2.inspect
  "OperationArguments(\x7b" ++ ", ".intercalate entries ++ "\x7d)"

end Arguments

end Bakehouse
