import Bakehouse.Proofs.Bindings
import Bakehouse.Proofs.Fuel

namespace Bakehouse

variable {s : Store} {frame : FrameId}

theorem finishes_evaluate_iff {e : Value} {o : Except Halt Value × Store} :
    Finishes (fun n => evaluate n e frame) s o ↔
      Finishes (fun n => evaluateStep (evaluate n) (fun f args => apply n f args frame) e frame)
        s o := by
  constructor
  · rintro ⟨hfuel, n, hn⟩
    cases n with
    | zero =>
        subst hn
        exact absurd rfl hfuel
    | succ n =>
        simp only [evaluate_succ] at hn
        exact ⟨hfuel, n, hn⟩
  · rintro ⟨hfuel, n, hn⟩
    refine ⟨hfuel, n + 1, ?_⟩
    simp only [evaluate_succ]
    exact hn

theorem finishes_apply_iff {f : Value} {args : List Value} {caller : FrameId}
    {o : Except Halt Value × Store} :
    Finishes (fun n => apply n f args caller) s o ↔
      Finishes (fun n => applyStep (evaluate n) (fun g xs => apply n g xs caller)
        (runProgram (evaluate n)) f args) s o := by
  constructor
  · rintro ⟨hfuel, n, hn⟩
    cases n with
    | zero =>
        subst hn
        exact absurd rfl hfuel
    | succ n =>
        simp only [apply_succ] at hn
        exact ⟨hfuel, n, hn⟩
  · rintro ⟨hfuel, n, hn⟩
    refine ⟨hfuel, n + 1, ?_⟩
    simp only [apply_succ]
    exact hn

/-- The form has this value, and finding it changes nothing. -/
def Yields (s : Store) (frame : FrameId) (e v : Value) : Prop :=
  Finishes (fun n => evaluate n e frame) s (.ok v, s)

theorem yields_symbol {x : Symbol} {v : Value} (h : s.scopes.lookup? frame x = some v) :
    Yields s frame (.symbol x) v := by
  refine finishes_evaluate_iff.mpr ⟨nofun, 0, ?_⟩
  simp only [evaluateStep, lookupFrom, Run.get_bind_apply, h]
  rfl

theorem finishes_mapM {es vs : List Value} (h : List.Forall₂ (Yields s frame) es vs) :
    Finishes (fun n => es.mapM fun e => evaluate n e frame) s (.ok vs, s) := by
  induction h with
  | nil => exact Finishes.const (pure []) s nofun
  | @cons e v es vs hv _ ih =>
      simp only [List.mapM_cons]
      refine hv.of_bind_ok (steady_evaluate e frame)
        (fun _ => (Steady.mapM (fun e => steady_evaluate e frame) es).bind fun _ => .const _) ?_
      refine ih.of_bind_ok (Steady.mapM (fun e => steady_evaluate e frame) es)
        (fun _ => .const _) ?_
      exact Finishes.const (pure (v :: vs)) s nofun

variable {head f : Value} {o : Except Halt Value × Store}

/-- Once the function of an application is known, its arguments are evaluated in order. -/
theorem finishes_application_iff (hhead : SpecialForm.ofHead? head = none)
    (hf : Yields s frame head f) (tail : List Value) :
    Finishes (fun n => evaluate n (.list (head :: tail)) frame) s o ↔
      Finishes (fun n => do
        let args ← tail.mapM fun arg => evaluate n arg frame
        apply n f args frame) s o := by
  rw [finishes_evaluate_iff]
  simp only [evaluateStep, hhead]
  exact Finishes.bind_iff (steady_evaluate head frame)
    (fun f => (Steady.mapM (fun e => steady_evaluate e frame) tail).bind fun args =>
      steady_apply f args frame) hf

/-- An application whose arguments have known values is a call of the function. -/
theorem finishes_call_iff (hhead : SpecialForm.ofHead? head = none) (hf : Yields s frame head f)
    {tail args : List Value} (hargs : List.Forall₂ (Yields s frame) tail args) :
    Finishes (fun n => evaluate n (.list (head :: tail)) frame) s o ↔
      Finishes (fun n => apply n f args frame) s o := by
  rw [finishes_application_iff hhead hf]
  exact Finishes.bind_iff (Steady.mapM (fun e => steady_evaluate e frame) tail)
    (fun args => steady_apply f args frame) (finishes_mapM hargs)

theorem finishes_builtin {b : Builtin} {args : List Value} (hrun : ∀ call, b.run call args s = o)
    (hfuel : o.1 ≠ .error .outOfFuel) (id : Nat) (caller : FrameId) :
    Finishes (fun n => apply n (.native id (.builtin b)) args caller) s o :=
  finishes_apply_iff.mpr ⟨hfuel, 0, hrun _⟩

theorem yields_builtin (hhead : SpecialForm.ofHead? head = none) {id : Nat} {b : Builtin}
    (hf : Yields s frame head (.native id (.builtin b))) {tail args : List Value}
    (hargs : List.Forall₂ (Yields s frame) tail args) {v : Value}
    (hrun : ∀ call, b.run call args s = (.ok v, s)) : Yields s frame (.list (head :: tail)) v :=
  (finishes_call_iff hhead hf hargs).mpr (finishes_builtin hrun nofun id frame)

theorem yields_quote {x : Value} : Yields s frame (.list [.symbol .quote, x]) x :=
  finishes_evaluate_iff.mpr ⟨nofun, 0, rfl⟩

theorem evalConditional_eq (eval : Eval) (frame : FrameId) (test yes no : Value) :
    SpecialForm.evalConditional eval frame [test, yes, no] =
      eval test frame >>= fun v =>
        match v with
        | .boolean b => eval (if b then yes else no) frame
        | _ => typeError .booleanExpected test := by
  change eval test frame >>= _ = _
  refine congrArg (eval test frame >>= ·) (funext fun v => ?_)
  cases v with
  | boolean b => cases b <;> rfl
  | _ => rfl

theorem finishes_conditional_iff (hhead : SpecialForm.ofHead? head = some .conditional)
    {test yes no : Value} {b : Bool} (htest : Yields s frame test (.boolean b)) :
    Finishes (fun n => evaluate n (.list [head, test, yes, no]) frame) s o ↔
      Finishes (fun n => evaluate n (if b then yes else no) frame) s o := by
  rw [finishes_evaluate_iff]
  simp only [evaluateStep, hhead, SpecialForm.eval, evalConditional_eq]
  refine Finishes.bind_iff (steady_evaluate test frame) (fun v => ?_) htest
  cases v with
  | boolean b => exact steady_evaluate _ frame
  | _ => exact .const _

/-- The store in which the body of a function is evaluated. -/
def Store.entered (s : Store) (outer : FrameId) (params : List Symbol) (args : List Value) :
    Store :=
  { s with scopes := ⟨s.scopes.frames.push ⟨params.zip args, s.scopes.chain outer⟩⟩ }

theorem bindAll_push (frames : Array (Frame Value)) (bindings : List (Symbol × Value))
    (outer : List FrameId) {params : List Symbol} {args : List Value}
    (hlen : params.length = args.length) (hnodup : (bindings.map (·.1) ++ params).Nodup) :
    bindAll frames.size params args { s with scopes := ⟨frames.push ⟨bindings, outer⟩⟩ } =
      (.ok (), { s with scopes := ⟨frames.push ⟨bindings ++ params.zip args, outer⟩⟩ }) := by
  induction params generalizing args bindings with
  | nil =>
      simp only [List.zip_nil_left, List.append_nil]
      cases args <;> rfl
  | cons x params ih =>
      cases args with
      | nil => cases hlen
      | cons v args =>
          have hx : x ∉ bindings.map (·.1) := by
            intro hmem
            exact (List.nodup_append.mp hnodup).2.2 x hmem x (by simp) rfl
          have hrest : ((bindings ++ [(x, v)]).map (·.1) ++ params).Nodup := by
            simpa using hnodup
          have hih := ih (bindings ++ [(x, v)]) (Nat.succ.inj hlen) hrest
          rw [List.zip_cons_cons, List.append_cons, ← hih, ← Frame.define_of_notMem hx,
            ← Scopes.define_push]
          rfl

theorem enter_eq (s : Store) (outer : FrameId) {params : List Symbol} {args : List Value}
    (hlen : params.length = args.length) (hnodup : params.Nodup) :
    enter outer params args s = (.ok s.scopes.frames.size, s.entered outer params args) := by
  have hbind := bindAll_push (s := s) s.scopes.frames [] (s.scopes.chain outer) hlen
    (by simpa using hnodup)
  simp only [enter, if_pos hlen]
  have hpush : pushFrame outer s =
      (.ok s.scopes.frames.size, { s with scopes := (s.scopes.push outer).1 }) := rfl
  rw [Run.bind_apply_ok hpush]
  exact Run.bind_apply_ok hbind

/-- A function written in the language is its body in a frame of its own. -/
theorem finishes_lambda_iff {id : Nat} {params : List Symbol} {body : Value}
    {outer caller : FrameId} {args : List Value} (hlen : params.length = args.length)
    (hnodup : params.Nodup) :
    Finishes (fun n => apply n (.lambda id params body outer) args caller) s o ↔
      Finishes (fun n => evaluate n body s.scopes.frames.size) (s.entered outer params args) o := by
  rw [finishes_apply_iff]
  have henter : Finishes (fun _ => enter outer params args) s
      (.ok s.scopes.frames.size, s.entered outer params args) :=
    ⟨nofun, 0, enter_eq s outer hlen hnodup⟩
  exact Finishes.bind_iff (.const _) (fun frame => steady_evaluate body frame) henter

end Bakehouse
