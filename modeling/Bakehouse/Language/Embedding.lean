import Bakehouse.Language.Builtin

/-!
Operations as functions of the language. An operation without parameters is applied to a dish at
once; one with parameters is first called with its arguments, which gives a function of a dish. The
dish is changed in place. While an operation works on a dish, the dish is borrowed and cannot be given
to another operation.
-/

namespace Bakehouse

/-- Runs a text as a program. -/
abbrev RunText := String → Run Unit

namespace Operation

/-- An integer is a finite number cut off toward zero. -/
def integerArgument (v : Value) : Run Argument :=
  match v with
  | .number x =>
    match Number.truncate? x with
    | some n => return .integer n
    | none => typeError .integerArgument v
  | _ => typeError .integerArgument v

/-- Every value but a function has a text. -/
def textArgument (v : Value) : Run Argument := do
  if v.isFunction then typeError .textArgument v else return .text (← shown v)

def convert (type : ArgumentType) (v : Value) : Run Argument :=
  match type with
  | .integer => integerArgument v
  | .text => textArgument v

def convertAll : List (String × ArgumentType) → List Value → Run (List (String × Argument))
  | p :: ps, v :: vs => do
    let a ← convert p.2 v
    return (p.1, a) :: (← convertAll ps vs)
  | _, _ => return []

/-- The arguments of a call, by the names of the parameters. -/
def arguments (op : Operation) (vs : List Value) : Run Arguments := do
  if op.arity = vs.length then
    let entries ← convertAll op.parameters vs
    return entries.foldl (fun bag e => bag.insert e.1 e.2) .empty
  else
    raise (.arity (.operation op.arity vs.length))

/-- Changes the payload of a dish that is still good. -/
def updatePayload (handle : Handle) (f : Payload → Payload) : Run Unit :=
  modify fun s =>
    match s.dish handle with
    | .good p => s.setDish handle (.good (f p))
    | .failed _ => s

def appendTo (text : String) (p : Payload) : Payload :=
  .text (p.shown ++ "[" ++ text ++ "]")

def passes (test : Test) (bag : Arguments) (d : Dish) : Bool :=
  match d, test with
  | .failed _, _ => false
  | .good p, .isText => p.isText
  | .good p, .holds q => p == q
  | .good _, .given name => bag.contains name

/-- Runs the handler where the run ends in an error of the language. What has been done by then stays
done. -/
def recovering {α : Type} (run handler : Run α) : Run α :=
  fun s =>
    match run s with
    | (.error (.error e), t) => if e.isRecoverable then handler t else (.error (.error e), t)
    | (r, t) => (r, t)

/-- The second run follows unless the first one has found a fault. -/
def unlessFault (first second : Run (Option Fault)) : Run (Option Fault) := do
  match ← first with
  | some f => return some f
  | none => second

/-- One action; the answer is the fault that spoils the dish, if any. -/
def runAction (runText : RunText) (handle : Handle) (bag : Arguments) : Action → Run (Option Fault)
  | .appendInteger name =>
    match bag.integer name with
    | .ok n => do
      updatePayload handle (appendTo (Number.integerText n))
      return none
    | .error f => return some f
  | .appendText name =>
    match bag.text name with
    | .ok s => do
      updatePayload handle (appendTo s)
      return none
    | .error f => return some f
  | .put p => do
    updatePayload handle fun _ => p
    return none
  | .fail message => return some (.custom message)
  | .raise message => raise (.raised message)
  | .eval code => do
    runText code
    return none
  | .skip => return none
  | .both first second =>
    unlessFault (runAction runText handle bag first) (runAction runText handle bag second)
  | .branch test yes no => do
    if passes test bag ((← get).dish handle) then
      runAction runText handle bag yes
    else
      runAction runText handle bag no
  -- A fault is no error of the language, so no handler sees it.
  | .attempt body handler =>
    recovering (runAction runText handle bag body) (runAction runText handle bag handler)

/-- Actions in order, up to the first fault. -/
def runActions (runText : RunText) (handle : Handle) (bag : Arguments) :
    List Action → Run (Option Fault)
  | [] => return none
  | action :: rest =>
    unlessFault (runAction runText handle bag action) (runActions runText handle bag rest)

/-- What an operation does to a good dish; the answer is the fault that spoils it, if any. -/
def runProcedure (op : Operation) (runText : RunText) (handle : Handle) (bag : Arguments) :
    Run (Option Fault) := do
  match op.procedure with
  | .catalog entry =>
    match (← get).dish handle with
    | .failed _ => return none
    | .good p =>
      match entry.run bag p with
      | .ok q => do
        updatePayload handle fun _ => q
        return none
      | .error (.fault f) => return some f
      | .error (.escape e) => raise (.escape e)
  | .custom actions => runActions runText handle bag actions

/-- Runs with the dish borrowed, and gives it back whatever happens. -/
def borrowing {α : Type} (handle : Handle) (run : Run α) : Run α :=
  fun s =>
    match run (s.setBorrowed handle true) with
    | (r, t) => (r, t.setBorrowed handle false)

/-- Applies an operation to a dish. A spoilt dish stays as it is. -/
def applyTo (op : Operation) (runText : RunText) (bag : Arguments) (handle : Handle) :
    Run Value := do
  let s ← get
  match s.dish handle with
  | .failed _ => return .dish handle
  | .good _ =>
    if s.isBorrowed handle then
      raise .borrowed
    else
      borrowing handle do
        match ← op.runProcedure runText handle bag with
        | some f => modify fun s => s.setDish handle (.failed f)
        | none => pure ()
      return .dish handle

def applyToArguments (op : Operation) (runText : RunText) (bag : Arguments) (args : List Value) :
    Run Value := do
  match ← expectOne args with
  | .dish handle => op.applyTo runText bag handle
  | _ => raise (.type (.dishExpected op.name))

end Operation

/-- Calls a function that is not written in the language. -/
def Native.run (f : Native) (call : Call) (runText : RunText) (args : List Value) : Run Value :=
  match f with
  | .builtin b => b.run call args
  | .operation op =>
    if op.arity = 0 then
      op.applyToArguments runText .empty args
    else do
      let bag ← op.arguments args
      return .native (← newIdentity) (.configured op bag)
  | .configured op bag => op.applyToArguments runText bag args

end Bakehouse
