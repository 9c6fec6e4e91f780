import Bakehouse.Language.Store

namespace Bakehouse

/-- An evaluator of values in a frame. -/
abbrev Eval := Value → FrameId → Run Value

/-- Lists with one of five symbols as their head get their parts unevaluated, and the symbols cannot be
given another meaning. -/
inductive SpecialForm where
  | quote
  | function
  | define
  | defineFunction
  | conditional
deriving Repr, DecidableEq

namespace SpecialForm

def ofName? (name : String) : Option SpecialForm :=
  [("quote", quote), ("fn", function), ("def", define), ("defn", defineFunction),
    ("if", conditional)].lookup name

/-- The special form that a list with this head is. -/
def ofHead? : Value → Option SpecialForm
  | .symbol s => ofName? s.name
  | _ => none

/-- The parameters of a function, which have to be symbols in a list. -/
def parameters (v : Value) : Run (List Symbol) := do
  let s ← get
  match v with
  | .list items =>
    items.mapM fun item =>
      match item with
      | .symbol x => return x
      | _ => raise (.type (.symbolExpected (item.bare s.dish)))
  | _ => raise (.type (.parameterList (v.bare s.dish)))

/-- A function that remembers the frame it was made in. -/
def makeLambda (params body : Value) (frame : FrameId) : Run Value := do
  let names ← parameters params
  return .lambda (← newIdentity) names body frame

def expectSymbol (v : Value) : Run Symbol :=
  match v with
  | .symbol x => return x
  | _ => typeError .symbolExpected v

/-- `(quote x)` is `x` as it stands. -/
def evalQuote : List Value → Run Value
  | [x] => return x
  | tail => raise (.arity (.quote tail.length))

/-- `(fn (params...) body)`. -/
def evalFunction (frame : FrameId) : List Value → Run Value
  | [params, body] => makeLambda params body frame
  | _ => raise (.arity .function)

/-- `(def name value)` binds in the innermost frame and returns the name. -/
def evalDefine (eval : Eval) (frame : FrameId) : List Value → Run Value
  | [name, value] => do
    let x ← expectSymbol name
    defineIn frame x (← eval value frame)
    return .symbol x
  | tail => raise (.arity (.define tail.length))

/-- `(defn name (params...) body)` is short for `(def name (fn (params...) body))`. -/
def evalDefineFunction (frame : FrameId) : List Value → Run Value
  | [name, params, body] => do
    let x ← expectSymbol name
    defineIn frame x (← makeLambda params body frame)
    return .symbol x
  | tail => raise (.arity (.defineFunction tail.length))

/-- `(if test yes no)`: the test has to be a truth value, and only the branch it chooses has to be
there. -/
def evalConditional (eval : Eval) (frame : FrameId) : List Value → Run Value
  | [] => raise (.arity .noTest)
  | test :: branches =>
    if 3 ≤ branches.length then
      raise (.arity (.manyBranches (branches.length + 1)))
    else do
      match ← eval test frame with
      | .boolean b =>
        let index := if b then 0 else 1
        match branches[index]? with
        | some branch => eval branch frame
        | none => raise (.arity (.noBranch (index + 1)))
      | _ => typeError .booleanExpected test

def eval (form : SpecialForm) (eval : Eval) (frame : FrameId) (tail : List Value) : Run Value :=
  match form with
  | quote => evalQuote tail
  | function => evalFunction frame tail
  | define => evalDefine eval frame tail
  | defineFunction => evalDefineFunction frame tail
  | conditional => evalConditional eval frame tail

end SpecialForm

end Bakehouse
