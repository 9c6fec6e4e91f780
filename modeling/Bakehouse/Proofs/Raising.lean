import Bakehouse.Proofs.Comparison.Evaluator

/-!
Faults as exceptions. In an evaluation of this kind the body of an operation may be any code at all. It
raises a fault from whatever depth, and there is one place where a fault is caught: where the
operation is applied to a dish. That is enough for no fault to leave an evaluation.
-/

namespace Bakehouse

/-- How a run can end without a value when faults are exceptions too. -/
inductive Exit where
  | halt (h : Halt)
  | fault (f : Fault)
deriving DecidableEq

abbrev Raising := ExceptT Exit (StateM Store)

/-- A run in which no fault is raised. -/
def Run.faultless {α : Type} (m : Run α) : Raising α :=
  fun s =>
    match m s with
    | (.ok a, t) => (.ok a, t)
    | (.error h, t) => (.error (.halt h), t)

namespace Raising

/-- Raises an error of the language, or another that is not a fault. -/
def fail {α : Type} (e : Error) : Raising α :=
  throw (.halt (.error e))

abbrev RunText := String → Raising Unit

abbrev Eval := Value → FrameId → Raising Value

abbrev Call := Value → List Value → Raising Value

/-- What operations do to a dish, given a way to run programs. -/
abbrev Bodies := RunText → Handle → Arguments → Operation → Raising Unit

section Operations

variable (runText : RunText) (handle : Handle) (bag : Arguments)

/-- Runs the handler where the run ends in an error of the language. A fault is none. -/
def recovering (m handler : Raising Unit) : Raising Unit :=
  fun s =>
    match m s with
    | (.error (.halt (.error e)), t) =>
      if e.isRecoverable then handler t else (.error (.halt (.error e)), t)
    | (r, t) => (r, t)

/-- One action of a custom operation. An argument that is missing or has the wrong type is a fault as
soon as it is asked for. -/
def action : Action → Raising Unit
  | .appendInteger name =>
    match bag.integer name with
    | .ok n => (Operation.updatePayload handle (Operation.appendTo (Number.integerText n))).faultless
    | .error f => throw (.fault f)
  | .appendText name =>
    match bag.text name with
    | .ok s => (Operation.updatePayload handle (Operation.appendTo s)).faultless
    | .error f => throw (.fault f)
  | .put p => (Operation.updatePayload handle fun _ => p).faultless
  | .fail message => throw (.fault (.custom message))
  | .raise message => fail (.raised message)
  | .eval code => runText code
  | .skip => pure ()
  | .both first second => do
    action first
    action second
  | .branch test yes no => do
    if Operation.passes test bag ((← (get : Run Store).faultless).dish handle) then
      action yes
    else
      action no
  | .attempt body handler => recovering (action body) (action handler)

/-- The bodies that operations have. -/
def body : Bodies := fun runText handle bag op =>
  match op.procedure with
  | .catalog entry => do
    match (← (get : Run Store).faultless).dish handle with
    | .failed _ => pure ()
    | .good p =>
      match entry.run bag p with
      | .ok q => (Operation.updatePayload handle fun _ => q).faultless
      | .error (.fault f) => throw (.fault f)
      | .error (.escape e) => fail (.escape e)
  | .custom actions => actions.forM (action runText handle bag)

/-- The one place where a fault is caught: it spoils the dish. Everything else passes. -/
def catching (m : Raising Unit) : Raising Unit :=
  fun s =>
    match m s with
    | (.error (.fault f), t) => (.ok (), t.setDish handle (.failed f))
    | (r, t) => (r, t)

def borrowing (m : Raising Unit) : Raising Unit :=
  fun s =>
    match m (s.setBorrowed handle true) with
    | (r, t) => (r, t.setBorrowed handle false)

def applyTo (bodies : Bodies) (op : Operation) : Raising Value := do
  let s ← (get : Run Store).faultless
  match s.dish handle with
  | .failed _ => return .dish handle
  | .good _ =>
    if s.isBorrowed handle then
      fail .borrowed
    else
      borrowing handle (catching handle (bodies runText handle bag op))
      return .dish handle

end Operations

def applyToArguments (bodies : Bodies) (op : Operation) (runText : RunText) (bag : Arguments)
    (args : List Value) : Raising Value := do
  match ← (expectOne args).faultless with
  | .dish handle => applyTo runText handle bag bodies op
  | _ => fail (.type (.dishExpected op.name))

def runApply (call : Call) (args : List Value) : Raising Value := do
  let (f, xs) ← (expectTwo args).faultless
  if !f.isFunction then
    fail (.type .applyFunction)
  else
    match xs with
    | .list items => call f items
    | _ => fail (.type .applyList)

def runBake (call : Call) (args : List Value) : Raising Value := do
  match ← (expectTwo args).faultless with
  | (.list steps, .dish handle) =>
    if steps.all (·.isFunction) then
      steps.forM fun step => do
        let _ ← call step [.dish handle]
      return .dish handle
    else
      fail (.type .bakeSteps)
  | (.list _, _) => fail (.type .bakeDish)
  | _ => fail (.type .bakeList)

/-- Two builtins call functions, which may apply operations; the others know nothing of dishes that
an operation works on. -/
def builtin (call : Call) (args : List Value) : Builtin → Raising Value
  | .apply => runApply call args
  | .bake => runBake call args
  | b => (b.run (fun f _ => return f) args).faultless

def native (bodies : Bodies) (call : Call) (runText : RunText) (args : List Value) :
    Native → Raising Value
  | .builtin b => builtin call args b
  | .operation op =>
    if op.arity = 0 then
      applyToArguments bodies op runText .empty args
    else do
      let bag ← (op.arguments args).faultless
      return .native (← newIdentity.faultless) (.configured op bag)
  | .configured op bag => applyToArguments bodies op runText bag args

open SpecialForm in
def specialForm (eval : Eval) (frame : FrameId) (tail : List Value) : SpecialForm → Raising Value
  | .quote => (evalQuote tail).faultless
  | .function => (evalFunction frame tail).faultless
  | .defineFunction => (evalDefineFunction frame tail).faultless
  | .define =>
    match tail with
    | [name, value] => do
      let x ← (expectSymbol name).faultless
      let v ← eval value frame
      (defineIn frame x v).faultless
      return .symbol x
    | tail => fail (.arity (.define tail.length))
  | .conditional =>
    match tail with
    | [] => fail (.arity .noTest)
    | test :: branches =>
      if 3 ≤ branches.length then
        fail (.arity (.manyBranches (branches.length + 1)))
      else do
        match ← eval test frame with
        | .boolean b =>
          let index := if b then 0 else 1
          match branches[index]? with
          | some branch => eval branch frame
          | none => fail (.arity (.noBranch (index + 1)))
        | _ => (typeError .booleanExpected test : Run Value).faultless

def runForms (eval : Value → Raising Value) :
    Option Value → List Form → Option ReadError → Raising (Option Value)
  | last, [], none => return last
  | _, [], some e => fail (.reading e)
  | _, f :: fs, error => do
    let e ← f.load.faultless
    let v ← eval e
    runForms eval (some v) fs error

def runSource (eval : Value → Raising Value) (code : String) : Raising (Option Value) :=
  runForms eval none (readAll code).1 (readAll code).2

/-- How an operation runs code. -/
def runProgram (eval : Eval) : RunText :=
  fun code => discard (runSource (fun v => eval v baseFrame) code)

section Evaluation

variable (bodies : Bodies)

mutual

def evaluate (fuel : Nat) (e : Value) (frame : FrameId) : Raising Value :=
  match fuel with
  | 0 => throw (.halt .outOfFuel)
  | fuel + 1 =>
    match e with
    | .symbol x => (lookupFrom frame x).faultless
    | .list [] => fail .emptyApplication
    | .list (head :: tail) =>
      match SpecialForm.ofHead? head with
      | some form => specialForm (evaluate fuel) frame tail form
      | none => do
        let f ← evaluate fuel head frame
        let args ← tail.mapM fun arg => evaluate fuel arg frame
        apply fuel f args frame
    | .lambda _ _ _ _ => fail (.type .lambdaEvaluated)
    | .native _ _ => fail (.type .functionEvaluated)
    | v => return v

def apply (fuel : Nat) (f : Value) (args : List Value) (caller : FrameId) : Raising Value :=
  match fuel with
  | 0 => throw (.halt .outOfFuel)
  | fuel + 1 =>
    match f with
    | .lambda _ params body outer => do
      let frame ← (enter outer params args).faultless
      evaluate fuel body frame
    | .native _ f =>
      native bodies (fun g xs => apply fuel g xs caller) (runProgram (evaluate fuel)) args f
    | v => (typeError .functionExpected v : Run Value).faultless

end

def evalText (fuel : Nat) (code : String) : Raising (Option Value) :=
  runSource (fun v => evaluate bodies fuel v baseFrame) code

def evalOne (fuel : Nat) (code : String) : Raising Value := do
  match read code with
  | .error e => fail (.reading e)
  | .ok f =>
    let e ← f.load.faultless
    evaluate bodies fuel e baseFrame

end Evaluation

theorem bind_apply {α β : Type} (m : Raising α) (k : α → Raising β) (s : Store) :
    (m >>= k) s = match m s with
      | (.ok a, t) => k a t
      | (.error e, t) => (.error e, t) := by
  change ExceptT.bindCont k (m s).1 (m s).2 = _
  rcases m s with ⟨_ | _, t⟩ <;> rfl

/-- No fault leaves the run, whatever store it starts in. -/
def Contained {α : Type} (m : Raising α) : Prop :=
  ∀ s f, (m s).1 ≠ .error (.fault f)

namespace Contained

variable {α β : Type}

theorem faultless (m : Run α) : Contained m.faultless := by
  intro s f
  simp only [Run.faultless]
  split <;> simp

theorem pure (a : α) : Contained (pure a : Raising α) :=
  faultless (Pure.pure a)

theorem fail (e : Error) : Contained (fail e : Raising α) :=
  faultless (raise e)

theorem bind {m : Raising α} {k : α → Raising β} (hm : Contained m) (hk : ∀ a, Contained (k a)) :
    Contained (m >>= k) := by
  intro s f
  have hs := hm s f
  rw [bind_apply]
  revert hs
  rcases m s with ⟨e | a, t⟩
  · intro hs h
    cases h
    exact hs rfl
  · intro _
    exact hk a t f

theorem mapM {f : α → Raising β} (hf : ∀ a, Contained (f a)) (xs : List α) :
    Contained (xs.mapM f) := by
  induction xs with
  | nil => exact pure []
  | cons x xs ih =>
      rw [List.mapM_cons]
      exact (hf x).bind fun _ => ih.bind fun _ => pure _

theorem forM {f : α → Raising PUnit} (hf : ∀ a, Contained (f a)) (xs : List α) :
    Contained (xs.forM f) := by
  induction xs with
  | nil => exact pure ()
  | cons x xs ih => exact (hf x).bind fun _ => ih

/-- The one step that turns a fault into something else. -/
theorem catching (handle : Handle) (m : Raising Unit) : Contained (catching handle m) := by
  intro s f
  simp only [Raising.catching]
  rcases m s with ⟨(halt | fault) | a, t⟩
  · simp
  · simp
  · simp

theorem borrowing {m : Raising Unit} (hm : Contained m) (handle : Handle) :
    Contained (borrowing handle m) :=
  fun s f => hm (s.setBorrowed handle true) f

section Operations

variable (bodies : Bodies) (op : Operation) (runText : RunText) (bag : Arguments)

theorem applyTo (handle : Handle) : Contained (applyTo runText handle bag bodies op) := by
  refine (faultless get).bind fun s => ?_
  split
  · exact pure _
  · split
    · exact fail _
    · exact ((catching handle _).borrowing handle).bind fun _ => pure _

theorem applyToArguments (args : List Value) :
    Contained (applyToArguments bodies op runText bag args) := by
  refine (faultless (expectOne args)).bind fun v => ?_
  split
  · exact applyTo bodies op runText bag _
  · exact fail _

end Operations

section Calls

variable {call : Call} (hcall : ∀ f args, Contained (call f args)) (args : List Value)
include hcall

theorem runApply : Contained (runApply call args) := by
  refine (faultless (expectTwo args)).bind fun ⟨f, xs⟩ => ?_
  simp only
  split
  · exact fail _
  · split
    · exact hcall f _
    · exact fail _

theorem runBake : Contained (runBake call args) := by
  refine (faultless (expectTwo args)).bind fun ⟨steps, dish⟩ => ?_
  split
  · split
    · refine (forM (fun step => ?_) _).bind fun _ => pure _
      exact (hcall step _).bind fun _ => pure _
    · exact fail _
  · exact fail _
  · exact fail _

theorem builtin (b : Builtin) : Contained (builtin call args b) := by
  cases b with
  | apply => exact runApply hcall args
  | bake => exact runBake hcall args
  | _ => exact faultless _

theorem native (bodies : Bodies) (runText : RunText) (f : Native) :
    Contained (native bodies call runText args f) := by
  cases f with
  | builtin b => exact builtin hcall args b
  | operation op =>
      simp only [Raising.native]
      split
      · exact applyToArguments bodies op runText .empty args
      · exact (faultless _).bind fun _ => (faultless _).bind fun _ => pure _
  | configured op bag => exact applyToArguments bodies op runText bag args

end Calls

section Evaluation

theorem specialForm {eval : Eval} (heval : ∀ e frame, Contained (eval e frame)) (frame : FrameId)
    (tail : List Value) (form : SpecialForm) : Contained (specialForm eval frame tail form) := by
  cases form with
  | define =>
      simp only [Raising.specialForm]
      split
      · refine (faultless _).bind fun _ => (heval _ _).bind fun _ => ?_
        exact (faultless _).bind fun _ => pure _
      · exact fail _
  | conditional =>
      simp only [Raising.specialForm]
      split
      · exact fail _
      · split
        · exact fail _
        · refine (heval _ _).bind fun v => ?_
          split
          · split
            · exact heval _ _
            · exact fail _
          · exact faultless _
  | _ => exact faultless _

theorem runForms {eval : Value → Raising Value} (heval : ∀ v, Contained (eval v))
    (last : Option Value) (forms : List Form) (error : Option ReadError) :
    Contained (runForms eval last forms error) := by
  induction forms generalizing last with
  | nil =>
      cases error with
      | none => exact pure _
      | some e => exact fail _
  | cons f forms ih =>
      refine (faultless _).bind fun v => (heval v).bind fun w => ?_
      exact ih (some w)

variable (bodies : Bodies)

/-- An application is contained because its fault is caught, everything else because its parts
are. -/
theorem evaluate_apply (fuel : Nat) :
    (∀ e frame, Contained (evaluate bodies fuel e frame)) ∧
      ∀ f args caller, Contained (apply bodies fuel f args caller) := by
  induction fuel with
  | zero =>
      constructor
      · intro e frame
        rw [evaluate]
        exact faultless (throw .outOfFuel)
      · intro f args caller
        rw [apply]
        exact faultless (throw .outOfFuel)
  | succ fuel ih =>
      obtain ⟨heval, happly⟩ := ih
      constructor
      · intro e frame
        rw [evaluate.eq_def]
        simp only
        split
        · exact faultless _
        · exact fail _
        · split
          · exact specialForm heval frame _ _
          · refine (heval _ _).bind fun f => (mapM (fun arg => heval arg frame) _).bind fun args => ?_
            exact happly f args frame
        · exact fail _
        · exact fail _
        · exact pure _
      · intro f args caller
        rw [apply.eq_def]
        simp only
        split
        · exact (faultless _).bind fun frame => heval _ frame
        · exact native (fun g xs => happly g xs caller) args bodies _ _
        · exact faultless _

theorem evalText (fuel : Nat) (code : String) : Contained (evalText bodies fuel code) :=
  runForms (fun v => (evaluate_apply bodies fuel).1 v baseFrame) none _ _

theorem evalOne (fuel : Nat) (code : String) : Contained (evalOne bodies fuel code) := by
  unfold Raising.evalOne
  split
  · exact fail _
  · exact (faultless _).bind fun v => (evaluate_apply bodies fuel).1 v baseFrame

end Evaluation

end Contained

end Raising

end Bakehouse
