import Bakehouse.Proofs.Limits

namespace Bakehouse

def Limited {α : Type} (m : Run α) : Prop :=
  ∀ s e, (m s).1 = .error (.error e) → e.Foreseen

namespace Limited

variable {α β : Type}

theorem pure (a : α) : Limited (pure a : Run α) := by
  intro s e h
  cases h

theorem raise {e : Error} (he : e.Foreseen) : Limited (raise e : Run α) := by
  intro s e' h
  cases h
  exact he

theorem outOfFuel : Limited (throw .outOfFuel : Run α) := by
  intro s e h
  cases h

theorem get : Limited (get : Run Store) := by
  intro s e h
  cases h

theorem modify (f : Store → Store) : Limited (modify f : Run PUnit) := by
  intro s e h
  cases h

theorem modifyGet (f : Store → α × Store) : Limited (modifyGet f : Run α) := by
  intro s e h
  cases h

theorem bind {m : Run α} {k : α → Run β} (hm : Limited m) (hk : ∀ a, Limited (k a)) :
    Limited (m >>= k) := by
  intro s e h
  rw [Run.bind_apply] at h
  split at h
  · exact hk _ _ e h
  · rename_i heq
    cases h
    exact hm s e (congrArg Prod.fst heq)

theorem mapM {f : α → Run β} (hf : ∀ a, Limited (f a)) (as : List α) : Limited (as.mapM f) := by
  induction as with
  | nil => exact pure []
  | cons a as ih =>
      rw [List.mapM_cons]
      exact (hf a).bind fun b => ih.bind fun bs => pure (b :: bs)

theorem forM {f : α → Run PUnit} (hf : ∀ a, Limited (f a)) (as : List α) : Limited (as.forM f) := by
  induction as with
  | nil => exact pure ()
  | cons a as ih => exact (hf a).bind fun _ => ih

/-- An error of the language. -/
theorem known {e : Error} (he : e.isRecoverable = true) : Limited (Bakehouse.raise e : Run α) :=
  raise (.inl he)

theorem shown (v : Value) : Limited (shown v) :=
  get.bind fun _ => pure _

theorem typeError (make : String → TypeError) (v : Value) : Limited (typeError make v : Run α) :=
  (shown v).bind fun _ => known rfl

section Builtins

open Builtin

variable (args : List Value)

theorem expectOne : Limited (expectOne args) := by
  unfold Bakehouse.expectOne
  split
  · exact pure _
  · exact known rfl

theorem expectTwo : Limited (expectTwo args) := by
  unfold Bakehouse.expectTwo
  split
  · exact pure _
  · exact known rfl

theorem expectAtLeast (n : Nat) : Limited (expectAtLeast args n) := by
  unfold Bakehouse.expectAtLeast
  split
  · exact pure _
  · exact known rfl

theorem expectList (v : Value) : Limited (expectList v) := by
  cases v with
  | list items => exact pure _
  | _ => exact typeError _ _

theorem expectNumber (v : Value) : Limited (expectNumber v) := by
  cases v with
  | number x => exact pure _
  | _ => exact typeError _ _

theorem onList {k : List Value → Run Value} (hk : ∀ items, Limited (k items)) :
    Limited (do k (← Bakehouse.expectList (← Bakehouse.expectOne args))) :=
  (expectOne args).bind fun v => (expectList v).bind hk

theorem runSub : Limited (runSub args) := by
  refine (mapM expectNumber args).bind fun xs => ?_
  cases xs with
  | nil => exact known rfl
  | cons x xs => exact pure _

theorem runEqual : Limited (runEqual args) := by
  refine get.bind fun s => ?_
  cases args with
  | nil => exact known rfl
  | cons v others => exact pure _

theorem runLast : Limited (runLast args) := by
  refine onList args fun items => ?_
  split
  · exact pure _
  · exact known rfl

theorem runCons : Limited (runCons args) := by
  refine (expectTwo args).bind fun vs => ?_
  split
  · exact pure _
  · exact known rfl

theorem runIsEmpty : Limited (runIsEmpty args) := by
  refine get.bind fun s => (expectOne args).bind fun v => ?_
  cases v <;> exact pure _

theorem runDish : Limited (runDish args) := by
  refine (expectOne args).bind fun v => ?_
  cases v with
  | text s => exact modifyGet _
  | _ => exact known rfl

theorem runRecipe : Limited (runRecipe args) := by
  refine (expectAtLeast args 1).bind fun _ => ?_
  split
  · exact typeError _ _
  · exact pure _

theorem runPrint : Limited (runPrint args) := by
  refine get.bind fun s => ?_
  cases args with
  | nil => exact known rfl
  | cons v others => exact (modify _).bind fun _ => pure _

variable {call : Call} (hcall : ∀ f args, Limited (call f args))
include hcall

theorem runApply : Limited (runApply call args) := by
  refine (expectTwo args).bind fun ⟨f, xs⟩ => ?_
  simp only
  split
  · exact known rfl
  · cases xs with
    | list items => exact hcall f items
    | _ => exact known rfl

theorem runBake : Limited (runBake call args) := by
  refine (expectTwo args).bind fun vs => ?_
  split
  · split
    · refine (forM (fun step => ?_) _).bind fun _ => pure _
      exact (hcall step _).bind fun _ => pure _
    · exact known rfl
  · exact known rfl
  · exact known rfl

theorem builtin (b : Builtin) : Limited (b.run call args) := by
  cases b with
  | add => exact (mapM expectNumber args).bind fun _ => pure _
  | sub => exact runSub args
  | equal => exact runEqual args
  | apply => exact runApply args hcall
  | first => exact onList args fun _ => pure _
  | rest => exact onList args fun _ => pure _
  | butlast => exact onList args fun _ => pure _
  | last => exact runLast args
  | isEmpty => exact runIsEmpty args
  | cons => exact runCons args
  | dish => exact runDish args
  | recipe => exact runRecipe args
  | bake => exact runBake args hcall
  | print => exact runPrint args

end Builtins

section Operations

open Operation

theorem convert (type : ArgumentType) (v : Value) : Limited (convert type v) := by
  cases type with
  | integer =>
      cases v with
      | number x =>
          simp only [Operation.convert, integerArgument]
          split
          · exact pure _
          · exact typeError _ _
      | _ => exact typeError _ _
  | text =>
      simp only [Operation.convert, textArgument]
      split
      · exact typeError _ _
      · exact (shown v).bind fun _ => pure _

theorem convertAll (params : List (String × ArgumentType)) (vs : List Value) :
    Limited (convertAll params vs) := by
  induction params generalizing vs with
  | nil => exact pure _
  | cons p params ih =>
      cases vs with
      | nil => exact pure _
      | cons v vs => exact (convert p.2 v).bind fun _ => (ih vs).bind fun _ => pure _

theorem arguments (op : Operation) (vs : List Value) : Limited (op.arguments vs) := by
  unfold Operation.arguments
  split
  · exact (convertAll _ _).bind fun _ => pure _
  · exact known rfl

theorem borrowing {m : Run α} (hm : Limited m) (h : Handle) : Limited (borrowing h m) :=
  fun s e => hm (s.setBorrowed h true) e

theorem unlessFault {first second : Run (Option Fault)} (hfirst : Limited first)
    (hsecond : Limited second) : Limited (unlessFault first second) := by
  refine hfirst.bind fun found => ?_
  cases found with
  | some f => exact pure _
  | none => exact hsecond

theorem recovering {m handler : Run α} (hm : Limited m) (hhandler : Limited handler) :
    Limited (recovering m handler) := by
  intro s e
  have hrun := hm s e
  simp only [Operation.recovering]
  generalize m s = o at hrun ⊢
  rcases o with ⟨(e' | _) | a, t⟩
  · simp only
    split
    · exact hhandler t e
    · exact hrun
  · exact hrun
  · exact hrun

variable {runText : RunText} (htext : ∀ code, Limited (runText code)) (h : Handle)
  (bag : Arguments)
include htext

theorem runAction (action : Action) : Limited (runAction runText h bag action) := by
  induction action with
  | appendInteger name =>
      simp only [Operation.runAction]
      split
      · exact (modify _).bind fun _ => pure _
      · exact pure _
  | appendText name =>
      simp only [Operation.runAction]
      split
      · exact (modify _).bind fun _ => pure _
      · exact pure _
  | put p => exact (modify _).bind fun _ => pure _
  | fail message => exact pure _
  | raise message => exact known rfl
  | eval code => exact (htext code).bind fun _ => pure _
  | skip => exact pure _
  | both first second ihfirst ihsecond => exact unlessFault ihfirst ihsecond
  | branch test yes no ihyes ihno =>
      simp only [Operation.runAction]
      refine get.bind fun s => ?_
      split
      · exact ihyes
      · exact ihno
  | attempt body handler ihbody ihhandler => exact recovering ihbody ihhandler

theorem runActions (actions : List Action) : Limited (runActions runText h bag actions) := by
  induction actions with
  | nil => exact pure _
  | cons action actions ih => exact unlessFault (runAction htext h bag action) ih

theorem runProcedure (op : Operation) : Limited (op.runProcedure runText h bag) := by
  unfold Operation.runProcedure
  cases op.procedure with
  | catalog entry =>
      refine get.bind fun s => ?_
      split
      · exact pure _
      · split
        · exact (modify _).bind fun _ => pure _
        · exact pure _
        · rename_i heq
          have hlimit : Escape.IsLimit _ := entry.errorsIn_run bag _ _ heq
          exact raise (.inr (.operation hlimit))
  | custom actions => exact runActions htext h bag actions

theorem applyTo (op : Operation) : Limited (op.applyTo runText bag h) := by
  refine get.bind fun s => ?_
  split
  · exact pure _
  · split
    · exact known rfl
    · refine bind (borrowing ((runProcedure htext h bag op).bind fun found => ?_) h) fun _ => pure _
      cases found with
      | some f => exact modify _
      | none => exact pure _

omit h in
theorem applyToArguments (op : Operation) (args : List Value) :
    Limited (op.applyToArguments runText bag args) := by
  refine (expectOne args).bind fun v => ?_
  cases v with
  | dish h => exact applyTo htext h bag op
  | _ => exact known rfl

omit h bag in
theorem native {call : Call} (hcall : ∀ f args, Limited (call f args)) (args : List Value)
    (f : Native) : Limited (f.run call runText args) := by
  cases f with
  | builtin b => exact builtin args hcall b
  | operation op =>
      simp only [Native.run]
      split
      · exact applyToArguments htext .empty op args
      · exact (arguments op args).bind fun _ => (modifyGet _).bind fun _ => pure _
  | configured op bag => exact applyToArguments htext bag op args

end Operations

section Evaluation

open SpecialForm

theorem parameters (v : Value) : Limited (parameters v) := by
  refine get.bind fun s => ?_
  split
  · refine mapM (fun item => ?_) _
    split
    · exact pure _
    · exact known rfl
  · exact known rfl

theorem makeLambda (params body : Value) (frame : FrameId) :
    Limited (makeLambda params body frame) :=
  (parameters params).bind fun _ => (modifyGet _).bind fun _ => pure _

theorem expectSymbol (v : Value) : Limited (expectSymbol v) := by
  cases v with
  | symbol x => exact pure _
  | _ => exact typeError _ _

theorem specialForm {eval : Eval} (heval : ∀ e frame, Limited (eval e frame)) (frame : FrameId)
    (tail : List Value) (form : SpecialForm) : Limited (form.eval eval frame tail) := by
  cases form with
  | quote =>
      simp only [SpecialForm.eval, evalQuote.eq_def]
      split
      · exact pure _
      · exact known rfl
  | function =>
      simp only [SpecialForm.eval, evalFunction.eq_def]
      split
      · exact makeLambda _ _ _
      · exact known rfl
  | define =>
      simp only [SpecialForm.eval, evalDefine.eq_def]
      split
      · refine (expectSymbol _).bind fun x => (heval _ _).bind fun v => ?_
        exact (modify _).bind fun _ => pure _
      · exact known rfl
  | defineFunction =>
      simp only [SpecialForm.eval, evalDefineFunction.eq_def]
      split
      · refine (expectSymbol _).bind fun x => (makeLambda _ _ _).bind fun v => ?_
        exact (modify _).bind fun _ => pure _
      · exact known rfl
  | conditional =>
      simp only [SpecialForm.eval, evalConditional.eq_def]
      split
      · exact known rfl
      split
      · exact known rfl
      · refine (heval _ _).bind fun v => ?_
        split
        · split
          · exact heval _ _
          · exact known rfl
        · exact typeError _ _

theorem load (f : Form) : Limited f.load := by
  intro s e h
  obtain ⟨v, t, hload, _⟩ := f.exists_load (P := fun _ => True) (fun _ _ _ => trivial) (s := s)
    trivial
  rw [hload] at h
  cases h

theorem bindAll (frame : FrameId) (xs : List Symbol) (vs : List Value) :
    Limited (bindAll frame xs vs) := by
  induction xs generalizing vs with
  | nil => exact pure _
  | cons x xs ih =>
      cases vs with
      | nil => exact pure _
      | cons v vs => exact (modify _).bind fun _ => ih vs

theorem enter (outer : FrameId) (params : List Symbol) (args : List Value) :
    Limited (enter outer params args) := by
  unfold Bakehouse.enter
  split
  · exact (modifyGet _).bind fun frame => (bindAll _ _ _).bind fun _ => pure _
  · exact known rfl

theorem runForms {eval : Value → Run Value} (heval : ∀ v, Limited (eval v)) (last : Option Value)
    (forms : List Form) {error : Option ReadError} (herror : ∀ e, error = some e → e.Foreseen) :
    Limited (runForms eval last forms error) := by
  induction forms generalizing last with
  | nil =>
      cases error with
      | none => exact pure _
      | some e => exact raise (herror e rfl)
  | cons f forms ih => exact (load f).bind fun v => (heval v).bind fun w => ih (some w)

theorem runSource {eval : Value → Run Value} (heval : ∀ v, Limited (eval v)) (code : String) :
    Limited (runSource eval code) :=
  runForms heval none _ fun _ he => foreseen_of_readAll he

theorem evaluate_apply (fuel : Nat) :
    (∀ e frame, Limited (evaluate fuel e frame)) ∧
      ∀ f args caller, Limited (apply fuel f args caller) := by
  induction fuel with
  | zero =>
      constructor
      · intro e frame
        rw [evaluate]
        exact outOfFuel
      · intro f args caller
        rw [apply]
        exact outOfFuel
  | succ fuel ih =>
      obtain ⟨heval, happly⟩ := ih
      constructor
      · intro e frame
        rw [evaluate.eq_def]
        simp only
        split
        · refine get.bind fun s => ?_
          split
          · exact pure _
          · exact known rfl
        · exact known rfl
        · split
          · exact specialForm heval frame _ _
          · refine (heval _ _).bind fun f => (mapM (fun arg => heval arg frame) _).bind fun args => ?_
            exact happly f args frame
        · exact known rfl
        · exact known rfl
        · exact pure _
      · intro f args caller
        rw [apply.eq_def]
        simp only
        split
        · exact (enter _ _ _).bind fun frame => heval _ frame
        · refine native (fun code => ?_) (fun g xs => happly g xs caller) args _
          exact (runSource (fun v => heval v baseFrame) code).bind fun _ => pure _
        · exact typeError _ _

theorem evalOne (fuel : Nat) (code : String) : Limited (evalOne fuel code) := by
  unfold Bakehouse.evalOne
  split
  · exact raise (errorsIn_read code _ ‹_›)
  · exact (load _).bind fun v => (evaluate_apply fuel).1 v baseFrame

end Evaluation

end Limited

end Bakehouse
