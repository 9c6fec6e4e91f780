import Bakehouse.Language.Equality

namespace Bakehouse

/-- Applies a function to arguments. -/
abbrev Call := Value → List Value → Run Value

def expectAtLeast (args : List Value) (n : Nat) : Run Unit :=
  if n ≤ args.length then pure () else raise (.arity (.atLeast n args.length))

def expectOne (args : List Value) : Run Value :=
  match args with
  | [v] => return v
  | _ => raise (.arity (.exactly 1 args.length))

def expectTwo (args : List Value) : Run (Value × Value) :=
  match args with
  | [v, w] => return (v, w)
  | _ => raise (.arity (.exactly 2 args.length))

def expectList (v : Value) : Run (List Value) :=
  match v with
  | .list items => return items
  | _ => typeError .listExpected v

def expectNumber (v : Value) : Run Float :=
  match v with
  | .number x => return x
  | _ => typeError .numberExpected v

namespace Builtin

/-- Numbers are added one after another to zero. -/
def sum (xs : List Float) : Float :=
  xs.foldl (· + ·) 0

def runAdd (args : List Value) : Run Value := do
  return .number (sum (← args.mapM expectNumber))

/-- The first number less the sum of the others. -/
def runSub (args : List Value) : Run Value := do
  match ← args.mapM expectNumber with
  | [] => raise (.arity .noNumber)
  | x :: xs => return .number (x - sum xs)

/-- Whether every argument equals the first. -/
def runEqual (args : List Value) : Run Value := do
  let s ← get
  match args with
  | [] => raise (.arity (.atLeast 1 0))
  | v :: others => return .boolean (others.all (s.same v))

def runApply (call : Call) (args : List Value) : Run Value := do
  let (f, xs) ← expectTwo args
  if !f.isFunction then
    raise (.type .applyFunction)
  else
    match xs with
    | .list items => call f items
    | _ => raise (.type .applyList)

/-- The first item, or `nil` if there is none. -/
def runFirst (args : List Value) : Run Value := do
  return (← expectList (← expectOne args)).headD .nil

def runRest (args : List Value) : Run Value := do
  return .list (← expectList (← expectOne args)).tail

def runButlast (args : List Value) : Run Value := do
  return .list (← expectList (← expectOne args)).dropLast

def runLast (args : List Value) : Run Value := do
  match (← expectList (← expectOne args)).getLast? with
  | some v => return v
  | none => raise (.type .emptyList)

def runCons (args : List Value) : Run Value := do
  match ← expectTwo args with
  | (v, .list items) => return .list (v :: items)
  | _ => raise (.type .consList)

/-- Lists, strings and dishes are empty or not; the question has no answer for other values. -/
def runIsEmpty (args : List Value) : Run Value := do
  let s ← get
  match ← expectOne args with
  | .list items => return .boolean items.isEmpty
  | .text t => return .boolean t.isEmpty
  | .dish handle => return .boolean (s.dish handle).isEmpty
  | _ => return .nil

def runDish (args : List Value) : Run Value := do
  match ← expectOne args with
  | .text s => newDish (.text s)
  | _ => raise (.type .dishText)

def runRecipe (args : List Value) : Run Value := do
  expectAtLeast args 1
  match args.find? (!·.isFunction) with
  | some v => typeError .stepExpected v
  | none => return .list args

/-- Applies every step to the dish in order. Nothing happens unless all steps are functions. -/
def runBake (call : Call) (args : List Value) : Run Value := do
  match ← expectTwo args with
  | (.list steps, .dish handle) =>
    if steps.all (·.isFunction) then
      steps.forM fun step => do
        let _ ← call step [.dish handle]
      return .dish handle
    else
      raise (.type .bakeSteps)
  | (.list _, _) => raise (.type .bakeDish)
  | _ => raise (.type .bakeList)

/-- A dish prints its bare payload or the bare message of its fault. -/
def runPrint (args : List Value) : Run Value := do
  let s ← get
  match args with
  | [] => raise (.arity (.atLeast 1 0))
  | v :: _ =>
    let text :=
      match v with
      | .dish handle => (s.dish handle).print
      | _ => s.display v
    write (text ++ "\n")
    return .nil

def run (b : Builtin) (call : Call) (args : List Value) : Run Value :=
  match b with
  | add => runAdd args
  | sub => runSub args
  | equal => runEqual args
  | apply => runApply call args
  | first => runFirst args
  | rest => runRest args
  | butlast => runButlast args
  | last => runLast args
  | isEmpty => runIsEmpty args
  | cons => runCons args
  | dish => runDish args
  | recipe => runRecipe args
  | bake => runBake call args
  | print => runPrint args

end Builtin

end Bakehouse
