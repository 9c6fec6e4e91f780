import Bakehouse.Language.Evaluator

namespace Bakehouse

/-- Defines a native function under a name. -/
def install (x : Symbol) (f : Native) : Run Unit := do
  defineIn baseFrame x (.native (← newIdentity) f)

/-- Registers operations in order; a name that comes up twice stops the registration, as does an empty
one. -/
def registerFrom : List String → List Operation → Run Unit
  | _, [] => pure ()
  | seen, op :: ops =>
    if seen.contains op.name then
      raise (.duplicateOperation op.name)
    else
      match Symbol.ofString? op.name with
      | none => raise (.escape .emptySymbol)
      | some x => do
        install x (.operation op)
        registerFrom (op.name :: seen) ops

def register (ops : List Operation) : Run Unit :=
  registerFrom [] ops

def installBase (characters : Pattern.CharacterNames) : Run Unit := do
  Builtin.all.forM fun b => install b.symbol (.builtin b)
  register ((Catalog.all characters).map Catalog.operation)

namespace Store

/-- The store of an interpreter without a prelude, on a host that knows these characters by name. -/
def initial (characters : Pattern.CharacterNames) : Store :=
  (installBase characters Store.empty).2

end Store

/-- Evaluates the one form of a text. -/
def evalOne (fuel : Nat) (code : String) : Run Value := do
  match read code with
  | .error e => raise (.reading e)
  | .ok f => evaluate fuel (← f.load) baseFrame

/-- Evaluates every form of a text; the answer is the value of the last one. -/
def evalText (fuel : Nat) (code : String) : Run (Option Value) :=
  runSource (fun v => evaluate fuel v baseFrame) code

/-- Functions written in the language itself. -/
def coreSource : String :=
  "; Functions written in codebake itself, loaded into every default environment.

(defn map (f lis)
  (if (empty? lis)
    (quote ())
    (cons (f (first lis)) (map f (rest lis)))))

(defn reduce (f acc lis)
  (if (empty? lis)
    acc
    (f (first lis) (reduce f acc (rest lis)))))
"

/-- Runs a text for its definitions. -/
def evalPrelude (fuel : Nat) (code : String) : Run Unit := do
  let _ ← evalText fuel code

end Bakehouse
