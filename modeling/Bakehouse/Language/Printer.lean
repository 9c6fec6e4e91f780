import Bakehouse.Dish.Basic
import Bakehouse.Language.Value

namespace Bakehouse

namespace Value

mutual

/-- What the read loop prints; the readable variant puts quotes around strings. -/
def display (dishes : Handle → Dish) (readable : Bool) : Value → String
  | .number x => Number.display x
  | .boolean b => if b then "true" else "false"
  | .text s => if readable then "\"" ++ s ++ "\"" else s
  | .symbol s => s.name
  | .list items => "(" ++ " ".intercalate (displayAll dishes readable items) ++ ")"
  | .dish handle => (dishes handle).display
  | .lambda _ _ _ _ => "lambda function"
  | .native _ _ => "built-in function"

def displayAll (dishes : Handle → Dish) (readable : Bool) : List Value → List String
  | [] => []
  | v :: vs => display dishes readable v :: displayAll dishes readable vs

end

def inspectSymbols (symbols : List Symbol) : String :=
  "[" ++ ", ".intercalate (symbols.map Symbol.inspect) ++ "]"

mutual

/-- The notation of messages that show a value exactly. -/
def inspect (dishes : Handle → Dish) : Value → String
  | .number x => Number.inspect x
  | .boolean b => if b then "True" else "False"
  | .text s => Text.quoted s
  | .symbol s => s.inspect
  | .list items => "[" ++ ", ".intercalate (inspectAll dishes items) ++ "]"
  | .dish handle => (dishes handle).inspect
  | .lambda _ params body _ =>
    "Lambda(" ++ inspectSymbols params ++ ", " ++ inspect dishes body ++ ")"
  | .native _ _ => "<function>"

def inspectAll (dishes : Handle → Dish) : List Value → List String
  | [] => []
  | v :: vs => inspect dishes v :: inspectAll dishes vs

end

/-- A value on its own in such a message. -/
def bare (dishes : Handle → Dish) : Value → String
  | .text s => s
  | .symbol s => s.name
  | .dish handle => (dishes handle).display
  | .lambda _ _ _ _ => "lambda function"
  | v => v.inspect dishes

end Value

end Bakehouse
