import Bakehouse.Language.Embedding
import Bakehouse.Language.SpecialForm
import Bakehouse.Reader.Parser

namespace Bakehouse

/-- Binds parameters to arguments, in order. -/
def bindAll (frame : FrameId) : List Symbol → List Value → Run Unit
  | x :: xs, v :: vs => do
    defineIn frame x v
    bindAll frame xs vs
  | _, _ => pure ()

/-- A new frame inside `outer` in which the parameters are bound. -/
def enter (outer : FrameId) (params : List Symbol) (args : List Value) : Run FrameId := do
  if params.length = args.length then
    let frame ← pushFrame outer
    bindAll frame params args
    return frame
  else
    raise (.arity (.lambda params.length args.length))

/-- The base frame, in which programs run. -/
def baseFrame : FrameId := 0

/-- Evaluates the forms of a text one after another; each is taken up when its turn comes. An error in
the text shows after the forms before it. The answer is the value of the last form, if there is
one. -/
def runForms (eval : Value → Run Value) :
    Option Value → List Form → Option ReadError → Run (Option Value)
  | last, [], none => return last
  | _, [], some e => raise (.reading e)
  | _, f :: fs, error => do
    let v ← eval (← f.load)
    runForms eval (some v) fs error

def runSource (eval : Value → Run Value) (code : String) : Run (Option Value) :=
  let (forms, error) := readAll code
  runForms eval none forms error

-- Running out of fuel is an outcome of its own; any other does not depend on how much there was.
mutual

/-- The value of a form in a frame. Numbers, truth values, strings and dishes are values of
themselves. -/
def evaluate (fuel : Nat) (e : Value) (frame : FrameId) : Run Value :=
  match fuel with
  | 0 => throw .outOfFuel
  | fuel + 1 =>
    match e with
    | .symbol x => lookupFrom frame x
    | .list [] => raise .emptyApplication
    | .list (head :: tail) =>
      match SpecialForm.ofHead? head with
      | some form => form.eval (evaluate fuel) frame tail
      | none => do
        let f ← evaluate fuel head frame
        let args ← tail.mapM fun arg => evaluate fuel arg frame
        apply fuel f args frame
    | .lambda _ _ _ _ => raise (.type .lambdaEvaluated)
    | .native _ _ => raise (.type .functionEvaluated)
    | v => return v

/-- Applies a function to arguments on behalf of a frame. A function written in the language runs in a
new frame inside the one it was made in. -/
def apply (fuel : Nat) (f : Value) (args : List Value) (caller : FrameId) : Run Value :=
  match fuel with
  | 0 => throw .outOfFuel
  | fuel + 1 =>
    match f with
    | .lambda _ params body outer => do
      let frame ← enter outer params args
      evaluate fuel body frame
    | .native _ native =>
      native.run (fun g xs => apply fuel g xs caller)
        (fun code => discard (runSource (fun v => evaluate fuel v baseFrame) code)) args
    | v => typeError .functionExpected v

end

end Bakehouse
