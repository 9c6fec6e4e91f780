import Bakehouse.Proofs.Cells
import Bakehouse.Proofs.Invariant
import Bakehouse.Proofs.Raising
import Bakehouse.Proofs.StickyFailure

namespace Bakehouse

namespace Run

variable {α β : Type}

@[simp] theorem faultless_pure (a : α) : (pure a : Run α).faultless = pure a := rfl

@[simp] theorem faultless_bind (m : Run α) (k : α → Run β) :
    (m >>= k).faultless = m.faultless >>= fun a => (k a).faultless := by
  funext s
  rw [Raising.bind_apply]
  simp only [faultless, bind_apply]
  rcases m s with ⟨_ | a, t⟩ <;> rfl

theorem faultless_discard (m : Run α) : (discard m).faultless = discard m.faultless := by
  change (m >>= fun _ => pure ()).faultless = m.faultless >>= fun _ => pure ()
  rw [faultless_bind]
  rfl

theorem faultless_mapM (f : α → Run β) (xs : List α) :
    xs.mapM (fun x => (f x).faultless) = (xs.mapM f).faultless := by
  induction xs with
  | nil => rfl
  | cons x xs ih => simp only [List.mapM_cons, ih, faultless_bind, faultless_pure]

theorem faultless_forM (f : α → Run PUnit) (xs : List α) :
    xs.forM (fun x => (f x).faultless) = (xs.forM f).faultless := by
  induction xs with
  | nil => rfl
  | cons x xs ih =>
      change ((f x).faultless >>= fun _ => xs.forM fun x => (f x).faultless) =
        Run.faultless (f x >>= fun _ => xs.forM f)
      rw [ih, faultless_bind]

end Run

namespace Raising

/-- Raises the fault that an action has come to, if any. -/
def settle : Option Fault → Raising Unit
  | some f => throw (.fault f)
  | none => pure ()

theorem settle_none (m : Run Unit) :
    (do
      m
      return none : Run (Option Fault)).faultless >>= settle = m.faultless := by
  simp only [Run.faultless_bind, Run.faultless_pure, bind_assoc, pure_bind, settle]
  exact bind_pure m.faultless

theorem unlessFault_eq (first second : Run (Option Fault)) :
    (first.faultless >>= settle >>= fun _ => second.faultless >>= settle) =
      (Operation.unlessFault first second).faultless >>= settle := by
  simp only [Operation.unlessFault, Run.faultless_bind, bind_assoc]
  refine bind_congr fun found => ?_
  cases found with
  | some f => rfl
  | none => rfl

/-- A fault that an action finds is raised past every handler. -/
theorem recovering_eq (m handler : Run (Option Fault)) :
    recovering (m.faultless >>= settle) (handler.faultless >>= settle) =
      (Operation.recovering m handler).faultless >>= settle := by
  funext s
  simp only [recovering, Operation.recovering, bind_apply, Run.faultless]
  rcases m s with ⟨(e | _) | (_ | f), t⟩
  · simp only
    split
    · rfl
    · rfl
  · rfl
  · rfl
  · rfl

section Operations

variable (runText : Bakehouse.RunText) (handle : Handle) (bag : Arguments)

theorem action_eq (a : Action) :
    action (fun code => (runText code).faultless) handle bag a =
      (Operation.runAction runText handle bag a).faultless >>= settle := by
  induction a with
  | appendInteger name =>
      simp only [action, Operation.runAction]
      cases bag.integer name with
      | ok n => exact (settle_none _).symm
      | error f => rfl
  | appendText name =>
      simp only [action, Operation.runAction]
      cases bag.text name with
      | ok s => exact (settle_none _).symm
      | error f => rfl
  | put p => exact (settle_none (Operation.updatePayload handle fun _ => p)).symm
  | fail message => rfl
  | raise message => rfl
  | eval code => exact (settle_none (runText code)).symm
  | skip => rfl
  | both first second ihfirst ihsecond =>
      simp only [action, ihfirst, ihsecond]
      exact unlessFault_eq _ _
  | branch test yes no ihyes ihno =>
      simp only [action, ihyes, ihno, Operation.runAction, Run.faultless_bind, bind_assoc]
      refine bind_congr fun s => ?_
      split
      · rfl
      · rfl
  | attempt body handler ihbody ihhandler =>
      simp only [action, ihbody, ihhandler]
      exact recovering_eq _ _

theorem actions_eq (actions : List Action) :
    actions.forM (action (fun code => (runText code).faultless) handle bag) =
      (Operation.runActions runText handle bag actions).faultless >>= settle := by
  induction actions with
  | nil => rfl
  | cons a actions ih =>
      change (action _ handle bag a >>= fun _ => actions.forM _) = _
      simp only [ih, action_eq]
      exact unlessFault_eq _ _

theorem body_eq (op : Operation) :
    body (fun code => (runText code).faultless) handle bag op =
      (op.runProcedure runText handle bag).faultless >>= settle := by
  unfold body Operation.runProcedure
  cases op.procedure with
  | catalog entry =>
      simp only [Run.faultless_bind, bind_assoc]
      refine bind_congr fun s => ?_
      cases s.dish handle with
      | failed _ => rfl
      | good p =>
          simp only
          rcases entry.run bag p with (f | e) | q
          · rfl
          · rfl
          · exact (settle_none (Operation.updatePayload handle fun _ => q)).symm
  | custom actions => exact actions_eq runText handle bag actions

theorem catching_eq (m : Run (Option Fault)) :
    catching handle (m.faultless >>= settle) =
      Run.faultless (do
        match ← m with
        | some f => modify fun s => s.setDish handle (.failed f)
        | none => pure ()) := by
  funext s
  simp only [catching, bind_apply, Run.faultless, Run.bind_apply]
  rcases m s with ⟨_ | _ | f, t⟩ <;> rfl

theorem borrowing_eq (m : Run Unit) :
    borrowing handle m.faultless = (Operation.borrowing handle m).faultless := by
  funext s
  simp only [borrowing, Operation.borrowing, Run.faultless]
  rcases m (s.setBorrowed handle true) with ⟨_ | _, t⟩ <;> rfl

theorem applyTo_eq (op : Operation) :
    applyTo (fun code => (runText code).faultless) handle bag body op =
      (op.applyTo runText bag handle).faultless := by
  simp only [applyTo, Operation.applyTo, Run.faultless_bind]
  refine bind_congr fun s => ?_
  cases s.dish handle with
  | failed _ => rfl
  | good p =>
      simp only
      split
      · rfl
      · rw [body_eq, catching_eq, borrowing_eq, Run.faultless_bind]
        rfl

theorem applyToArguments_eq (op : Operation) (args : List Value) :
    applyToArguments body op (fun code => (runText code).faultless) bag args =
      (op.applyToArguments runText bag args).faultless := by
  simp only [applyToArguments, Operation.applyToArguments, Run.faultless_bind]
  refine bind_congr fun v => ?_
  cases v with
  | dish h => exact applyTo_eq runText h bag op
  | _ => rfl

end Operations

section Calls

variable (call : Bakehouse.Call) (args : List Value)

theorem runApply_eq :
    runApply (fun f xs => (call f xs).faultless) args = (Builtin.runApply call args).faultless := by
  simp only [runApply, Builtin.runApply, Run.faultless_bind]
  refine bind_congr fun args => ?_
  obtain ⟨f, xs⟩ := args
  simp only
  split
  · rfl
  · cases xs <;> rfl

theorem runBake_eq :
    runBake (fun f xs => (call f xs).faultless) args = (Builtin.runBake call args).faultless := by
  simp only [runBake, Builtin.runBake, Run.faultless_bind]
  refine bind_congr fun args => ?_
  obtain ⟨steps, dish⟩ := args
  cases steps with
  | list steps =>
      cases dish with
      | dish h =>
          simp only
          split
          · rw [Run.faultless_bind, ← Run.faultless_forM]
            simp only [Run.faultless_bind, Run.faultless_pure]
          · rfl
      | _ => rfl
  | _ => rfl

theorem builtin_eq (b : Builtin) :
    builtin (fun f xs => (call f xs).faultless) args b = (b.run call args).faultless := by
  cases b with
  | apply => exact runApply_eq call args
  | bake => exact runBake_eq call args
  | _ => rfl

theorem native_eq (runText : Bakehouse.RunText) (f : Native) :
    native body (fun f xs => (call f xs).faultless) (fun code => (runText code).faultless) args f =
      (f.run call runText args).faultless := by
  cases f with
  | builtin b => exact builtin_eq call args b
  | operation op =>
      simp only [native, Native.run]
      split
      · exact applyToArguments_eq runText .empty op args
      · simp only [Run.faultless_bind, Run.faultless_pure]
  | configured op bag => exact applyToArguments_eq runText bag op args

end Calls

section Evaluation

variable (eval : Bakehouse.Eval)

theorem specialForm_eq (frame : FrameId) (tail : List Value) (form : SpecialForm) :
    specialForm (fun e frame => (eval e frame).faultless) frame tail form =
      (form.eval eval frame tail).faultless := by
  cases form with
  | define =>
      simp only [specialForm, SpecialForm.eval]
      rcases tail with _ | ⟨name, _ | ⟨value, _ | ⟨_, _⟩⟩⟩
      · rfl
      · rfl
      · simp only [SpecialForm.evalDefine, Run.faultless_bind, Run.faultless_pure]
      · rfl
  | conditional =>
      cases tail with
      | nil => rfl
      | cons test branches =>
          simp only [specialForm, SpecialForm.eval, SpecialForm.evalConditional]
          split
          · rfl
          · rw [Run.faultless_bind]
            refine bind_congr fun v => ?_
            cases v with
            | boolean b =>
                simp only
                cases branches[if b then 0 else 1]? <;> rfl
            | _ => rfl
  | _ => rfl

theorem runForms_eq (eval : Value → Run Value) (last : Option Value) (forms : List Form)
    (error : Option ReadError) :
    runForms (fun v => (eval v).faultless) last forms error =
      (Bakehouse.runForms eval last forms error).faultless := by
  induction forms generalizing last with
  | nil => cases error <;> rfl
  | cons f forms ih => simp only [runForms, Bakehouse.runForms, ih, Run.faultless_bind]

theorem runSource_eq (eval : Value → Run Value) (code : String) :
    runSource (fun v => (eval v).faultless) code = (Bakehouse.runSource eval code).faultless :=
  runForms_eq eval none _ _

theorem runProgram_eq :
    runProgram (fun e frame => (eval e frame).faultless) =
      fun code => (Bakehouse.runProgram eval code).faultless := by
  funext code
  rw [runProgram, runSource_eq, ← Run.faultless_discard]
  rfl

/-- Raising faults and catching them does the same as handing them on. -/
theorem evaluate_apply_eq (fuel : Nat) :
    (evaluate body fuel = fun e frame => (Bakehouse.evaluate fuel e frame).faultless) ∧
      apply body fuel = fun f args caller => (Bakehouse.apply fuel f args caller).faultless := by
  induction fuel with
  | zero =>
      constructor
      · funext e frame
        rw [evaluate, Bakehouse.evaluate]
        rfl
      · funext f args caller
        rw [apply, Bakehouse.apply]
        rfl
  | succ fuel ih =>
      obtain ⟨heval, happly⟩ := ih
      constructor
      · funext e frame
        rw [evaluate_succ, evaluate.eq_def]
        simp only [heval, happly]
        cases e with
        | list items =>
            cases items with
            | nil => rfl
            | cons head tail =>
                simp only [evaluateStep]
                cases SpecialForm.ofHead? head with
                | some form => exact specialForm_eq _ frame tail form
                | none => simp only [Run.faultless_mapM, Run.faultless_bind]
        | _ => rfl
      · funext f args caller
        rw [apply_succ, apply.eq_def]
        simp only [heval, happly, runProgram_eq]
        cases f with
        | lambda id params body outer => simp only [applyStep, Run.faultless_bind]
        | native id f => exact native_eq _ args _ f
        | _ => rfl

theorem evaluate_eq (fuel : Nat) (e : Value) (frame : FrameId) :
    evaluate body fuel e frame = (Bakehouse.evaluate fuel e frame).faultless := by
  rw [(evaluate_apply_eq fuel).1]

theorem apply_eq (fuel : Nat) (f : Value) (args : List Value) (caller : FrameId) :
    apply body fuel f args caller = (Bakehouse.apply fuel f args caller).faultless := by
  rw [(evaluate_apply_eq fuel).2]

theorem evalText_eq (fuel : Nat) (code : String) :
    evalText body fuel code = (Bakehouse.evalText fuel code).faultless := by
  simp only [evalText, evaluate_eq]
  exact runSource_eq _ code

theorem evalOne_eq (fuel : Nat) (code : String) :
    evalOne body fuel code = (Bakehouse.evalOne fuel code).faultless := by
  unfold evalOne Bakehouse.evalOne
  cases read code with
  | error e => rfl
  | ok f => simp only [evaluate_eq, Run.faultless_bind]

end Evaluation

end Raising

/-- At least the first `n` dishes are there. -/
def cellsKept (n : Nat) : Invariant where
  Stage := Unit
  allowed _ := True
  writable _ := True
  holds _ s := n ≤ s.cells.size
  configured _ _ := trivial
  writable_base _ _ := trivial
  congr hs _ hcells := by rwa [hcells]
  push _ hs := ⟨trivial, hs⟩
  define _ _ hs _ := hs
  newDish p hs := by
    rw [Store.size_newDish]
    exact Nat.le_succ_of_le hs
  payload q hs _ := by rwa [Store.size_setDish]
  borrow hs _ _ := by
    refine ⟨(), by rwa [Store.size_setBorrowed], fun ht => ⟨by rwa [Store.size_setBorrowed], ?_⟩⟩
    intro _ f _ _
    rwa [Store.size_setBorrowed, Store.size_setDish]

namespace Raising

/-- A function that applies an operation with certain arguments to the dish it is given. -/
inductive Applies (op : Operation) : Arguments → Native → Prop where
  | plain (harity : op.arity = 0) : Applies op .empty (.operation op)
  | configured (bag : Arguments) : Applies op bag (.configured op bag)

theorem Applies.native_eq {op : Operation} {bag : Arguments} {g : Native} (hg : Applies op bag g)
    (bodies : Bodies) (call : Call) (runText : RunText) (h : Handle) :
    native bodies call runText [.dish h] g = applyTo runText h bag bodies op := by
  cases hg with
  | plain harity =>
      simp only [native, if_pos harity]
      rfl
  | configured bag => rfl

variable {bodies : Bodies} {op : Operation} {bag : Arguments} {h : Handle} {s t : Store} {f : Fault}

theorem applyTo_of_fault {runText : RunText} (hgood : (s.dish h).isGood = true)
    (hfree : s.isBorrowed h = false)
    (hfault : bodies runText h bag op (s.setBorrowed h true) = (.error (.fault f), t)) :
    applyTo runText h bag bodies op s =
      (.ok (.dish h), (t.setDish h (.failed f)).setBorrowed h false) := by
  have hcaught : borrowing h (catching h (bodies runText h bag op)) s =
      (.ok (), (t.setDish h (.failed f)).setBorrowed h false) := by
    simp only [borrowing, catching, hfault]
  cases hdish : s.dish h with
  | failed g =>
      rw [hdish] at hgood
      cases hgood
  | good p =>
      have hget : (get : Run Store).faultless s = (.ok s, s) := rfl
      simp only [applyTo, bind_apply, hget, hdish, hfree, Bool.false_eq_true, if_false, hcaught]
      rfl

theorem failure?_spoilt (hlt : h < t.cells.size) (f : Fault) :
    ((t.setDish h (.failed f)).setBorrowed h false).failure? h = some f.message := by
  refine failure?_eq_some.mpr ⟨f, ?_, rfl⟩
  rw [Store.dish_setBorrowed]
  simp only [Store.dish, Store.setDish, Array.getElem?_modify, if_true,
    Array.getElem?_eq_getElem hlt]
  rfl

theorem settle_apply_snd (m : Run (Option Fault)) (s : Store) :
    ((m.faultless >>= settle) s).2 = (m s).2 := by
  simp only [bind_apply, Run.faultless]
  rcases m s with ⟨_ | _ | f, t⟩ <;> rfl

/-- The bodies of operations lose no dish. -/
theorem size_le_of_body (fuel : Nat) (h : Handle) (bag : Arguments) (op : Operation) (s : Store) :
    s.cells.size ≤ (body (runProgram (evaluate body fuel)) h bag op s).2.cells.size := by
  let C := (cellsKept s.cells.size).comparison False
  have hopen : C.Open := ⟨trivial, fun _ => trivial⟩
  have htext : C.TextAgrees (Bakehouse.runProgram (Bakehouse.evaluate fuel))
      (Bakehouse.runProgram (Bakehouse.evaluate fuel)) :=
    Comparison.agrees_runProgram (Comparison.agrees_evaluate fuel)
  have hrun := Invariant.stands_of_agrees
    (Comparison.agrees_runProcedure htext op (M := .same) (h := h) rfl bag fun _ => hopen)
    (i := ()) (s := s) ⟨Nat.le_refl s.cells.size, fun _ _ => trivial⟩
  rw [(evaluate_apply_eq fuel).1, runProgram_eq, body_eq, settle_apply_snd]
  exact hrun.holds

/-- Whatever the bodies of operations do, no fault leaves an evaluation. A fault that one raises spoils
the dish that the operation was applied to, and the evaluation goes on with that dish as the value
of the application. With the bodies that operations have, this evaluation is the other one. -/
theorem faults_stop_at_the_dish (fuel : Nat) :
    (∀ bodies : Bodies,
      (∀ e frame, Contained (evaluate bodies fuel e frame)) ∧
      (∀ code, Contained (evalOne bodies fuel code)) ∧
      (∀ code, Contained (evalText bodies fuel code)) ∧
      ∀ (op : Operation) (bag : Arguments) (g : Native) (h : Handle) (s t : Store) (f : Fault),
        Applies op bag g → (s.dish h).isGood = true → s.isBorrowed h = false →
        bodies (runProgram (evaluate bodies fuel)) h bag op (s.setBorrowed h true) =
          (.error (.fault f), t) →
        h < t.cells.size →
          let u := (t.setDish h (.failed f)).setBorrowed h false
          u.failure? h = some f.message ∧
          ∀ (id : Nat) (caller : FrameId) (k : Value → Raising Value),
            (apply bodies (fuel + 1) (.native id g) [.dish h] caller >>= k) s = k (.dish h) u) ∧
    (∀ e frame, evaluate body fuel e frame = (Bakehouse.evaluate fuel e frame).faultless) ∧
    (∀ g args caller,
      apply body fuel g args caller = (Bakehouse.apply fuel g args caller).faultless) ∧
    (∀ code, evalOne body fuel code = (Bakehouse.evalOne fuel code).faultless) ∧
    (∀ code, evalText body fuel code = (Bakehouse.evalText fuel code).faultless) ∧
    ∀ h bag op s,
      s.cells.size ≤ (body (runProgram (evaluate body fuel)) h bag op s).2.cells.size := by
  refine ⟨fun bodies => ⟨?_, ?_, ?_, ?_⟩, ?_, ?_, ?_, ?_, ?_⟩
  · exact (Contained.evaluate_apply bodies fuel).1
  · exact Contained.evalOne bodies fuel
  · exact Contained.evalText bodies fuel
  · intro op bag g h s t f hg hgood hfree hfault hlt
    refine ⟨failure?_spoilt hlt f, ?_⟩
    intro id caller k
    have happly : apply bodies (fuel + 1) (.native id g) [.dish h] caller s =
        (.ok (.dish h), (t.setDish h (.failed f)).setBorrowed h false) := by
      rw [apply, hg.native_eq]
      exact applyTo_of_fault hgood hfree hfault
    rw [bind_apply, happly]
  · exact evaluate_eq fuel
  · exact apply_eq fuel
  · exact evalOne_eq fuel
  · exact evalText_eq fuel
  · exact size_le_of_body fuel

/-- An operation that runs a program, changes the dish and then asks for an integer where it was given
a text. -/
theorem faults_stop_at_the_dish_reentrant :
    let op : Operation :=
      ⟨"singe", [("n", .text)], .custom [.eval "(def x 1)", .put (.text "b"), .appendInteger "n"]⟩
    let bag : Arguments := ⟨[("n", .text "1")]⟩
    let s : Store := { Store.empty with cells := #[⟨.good (.text "a"), false⟩] }
    let t := (body (runProgram (evaluate body 3)) 0 bag op (s.setBorrowed 0 true)).2
    let u := (t.setDish 0 (.failed .integerExpected)).setBorrowed 0 false
    Applies op bag (.configured op bag) ∧
    body (runProgram (evaluate body 3)) 0 bag op (s.setBorrowed 0 true) =
      (.error (.fault .integerExpected), t) ∧
    0 < t.cells.size ∧
    u.failure? 0 = some "expected integer, got string" ∧
    apply body 4 (.native 0 (.configured op bag)) [.dish 0] baseFrame s = (.ok (.dish 0), u) := by
  intro op bag s t u
  have hfault : body (runProgram (evaluate body 3)) 0 bag op (s.setBorrowed 0 true) =
      (.error (.fault .integerExpected), t) := by
    refine Prod.ext ?_ rfl
    simp only [op, bag, s]
    decide +kernel
  have hlt : 0 < t.cells.size := (faults_stop_at_the_dish 3).2.2.2.2.2 0 bag op (s.setBorrowed 0 true)
  obtain ⟨hmessage, hgoes⟩ := ((faults_stop_at_the_dish 3).1 body).2.2.2 op bag _ 0 s t _
    (.configured bag) rfl rfl hfault hlt
  have hcall := hgoes 0 baseFrame pure
  rw [bind_pure] at hcall
  exact ⟨.configured bag, hfault, hlt, hmessage, hcall⟩

end Raising

end Bakehouse
