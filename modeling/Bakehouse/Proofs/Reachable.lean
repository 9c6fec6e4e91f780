import Bakehouse.Proofs.Invariant

/-!
The stores that an interpreter can be in. Between calls from outside these are the results of
earlier calls. In the middle of a call a store counts whenever an evaluation, an application or a
program that an operation runs starts or ends in it: a run visits a store if breaking it off there
would show. An invariant holds in all of them.
-/

namespace Bakehouse

open Classical in
/-- Breaks a run off if it starts or ends in the store `stop`. -/
noncomputable def breakingAt {α : Type} (stop : Store) (halt : Halt) (m : Run α) : Run α :=
  fun s =>
    if s = stop then (.error halt, s)
    else
      match m s with
      | (r, t) => if t = stop then (.error halt, t) else (r, t)

mutual

noncomputable def evaluateBreaking (stop : Store) (halt : Halt) : Nat → Value → FrameId → Run Value
  | 0, _, _ => throw .outOfFuel
  | fuel + 1, e, frame =>
    breakingAt stop halt (evaluateStep (evaluateBreaking stop halt fuel)
      (fun f args => applyBreaking stop halt fuel f args frame) e frame)

noncomputable def applyBreaking (stop : Store) (halt : Halt) :
    Nat → Value → List Value → FrameId → Run Value
  | 0, _, _, _ => throw .outOfFuel
  | fuel + 1, f, args, caller =>
    breakingAt stop halt (applyStep (evaluateBreaking stop halt fuel)
      (fun g xs => applyBreaking stop halt fuel g xs caller)
      (fun code => breakingAt stop halt (runProgram (evaluateBreaking stop halt fuel) code)) f args)

end

/-- The store `t` is visited while the form is evaluated from the store `s`. -/
def EvaluationVisits (fuel : Nat) (e : Value) (frame : FrameId) (s t : Store) : Prop :=
  ∃ halt, evaluateBreaking t halt fuel e frame s ≠ evaluate fuel e frame s

/-- The store `t` is visited while the function is applied from the store `s`. -/
def ApplicationVisits (fuel : Nat) (f : Value) (args : List Value) (caller : FrameId)
    (s t : Store) : Prop :=
  ∃ halt, applyBreaking t halt fuel f args caller s ≠ apply fuel f args caller s

/-- Stores between calls: operations are registered, texts run, forms taken up and evaluated, and
functions applied, each with whatever result. -/
inductive AtRest : Store → Prop
  | initial (characters : Pattern.CharacterNames) : AtRest (Store.initial characters)
  | register {s : Store} (ops : List Operation) : AtRest s → AtRest (register ops s).2
  | evalText {s : Store} (fuel : Nat) (code : String) : AtRest s → AtRest (evalText fuel code s).2
  | evalOne {s : Store} (fuel : Nat) (code : String) : AtRest s → AtRest (evalOne fuel code s).2
  | load {s : Store} (f : Form) : AtRest s → AtRest (f.load s).2
  | evaluate {s : Store} (fuel : Nat) (e : Value) (frame : FrameId) :
      AtRest s → AtRest (evaluate fuel e frame s).2
  | apply {s : Store} (fuel : Nat) (f : Value) (args : List Value) (caller : FrameId) :
      AtRest s → AtRest (apply fuel f args caller s).2

/-- Stores at rest and stores that are visited in the middle of a call. -/
inductive Reachable : Store → Prop
  | rest {s : Store} : AtRest s → Reachable s
  | evaluating {s t : Store} {fuel : Nat} {e : Value} {frame : FrameId} :
      AtRest s → EvaluationVisits fuel e frame s t → Reachable t
  | applying {s t : Store} {fuel : Nat} {f : Value} {args : List Value} {caller : FrameId} :
      AtRest s → ApplicationVisits fuel f args caller s t → Reachable t

namespace Invariant

variable {I : Invariant} {i : I.Stage} {s t : Store}

/-- Breaking off in a store that the invariant excludes makes no difference. -/
theorem agrees_breakingAt {α β : Type} {M : Matching} {R : Matching → α → β → Prop} {m : Run α}
    {m' : Run β} {stop : Store} (halt : Halt) (hstop : ∀ j, ¬ I.Stands j stop)
    (h : (I.comparison False).Agrees M R m m') :
    (I.comparison False).Agrees M R (breakingAt stop halt m) m' := by
  intro j N s t hMN hst
  have hstart : s ≠ stop := by
    rintro rfl
    exact hstop j hst.2.2
  obtain ⟨O, hNO, hst', hcorr⟩ := (h j N s t hMN hst).matched not_false
  have hend : (m s).2 ≠ stop := by
    intro heq
    exact hstop j (heq ▸ hst'.2.2)
  have hbreaking : breakingAt stop halt m s = m s := by
    simp only [breakingAt, if_neg hstart]
    exact if_neg hend
  rw [hbreaking]
  exact .inr ⟨O, hNO, hst', hcorr⟩

theorem agrees_breaking {stop : Store} (halt : Halt) (hstop : ∀ j, ¬ I.Stands j stop) (fuel : Nat) :
    (I.comparison False).EvalAgrees (evaluateBreaking stop halt fuel) (Bakehouse.evaluate fuel) ∧
      ∀ caller caller', (I.comparison False).CallAgrees
        (fun f args => applyBreaking stop halt fuel f args caller)
        (fun f args => Bakehouse.apply fuel f args caller') := by
  induction fuel with
  | zero =>
      refine ⟨fun _ _ _ _ N _ _ _ hst => ?_, fun _ _ _ _ _ _ _ _ _ _ N _ _ _ hst => ?_⟩
      · simp only [evaluateBreaking]
        exact .inr ⟨N, le_rfl, hst, .error _⟩
      · simp only [applyBreaking]
        exact .inr ⟨N, le_rfl, hst, .error _⟩
  | succ fuel ih =>
      obtain ⟨heval, hcall⟩ := ih
      refine ⟨fun he hframe hwritable => ?_, fun caller caller' M f f' args args' hf hargs => ?_⟩
      · rw [evaluate_succ]
        simp only [evaluateBreaking]
        exact agrees_breakingAt halt hstop
          (Comparison.agrees_evaluateStep heval (hcall _ _) he hframe hwritable)
      · simp only [apply_succ, applyBreaking]
        refine agrees_breakingAt halt hstop
          (Comparison.agrees_applyStep heval (hcall _ _) ?_ hf hargs)
        exact fun hopen M code =>
          agrees_breakingAt halt hstop (Comparison.agrees_runProgram heval hopen M code)

theorem Stands.of_evaluationVisits (hs : I.Stands i s) {fuel : Nat} {e : Value} {frame : FrameId}
    (he : ∀ f ∈ e.natives, I.allowed f) (hframe : I.writable frame)
    (hvisits : EvaluationVisits fuel e frame s t) : ∃ j, I.Stands j t := by
  by_contra hnone
  obtain ⟨halt, hdiffers⟩ := hvisits
  have hagrees := (agrees_breaking halt (not_exists.mp hnone) fuel).1
    (code_self he) (M := .same) rfl hframe
  exact hdiffers ((eq_of_ends (hagrees i .same s s le_rfl ⟨rfl, rfl, hs⟩)).resolve_left (·.1))

theorem Stands.of_applicationVisits (hs : I.Stands i s) {fuel : Nat} {f : Value}
    {args : List Value} {caller : FrameId} (hf : ∀ g ∈ f.natives, I.allowed g)
    (hargs : ∀ g ∈ Value.nativesAll args, I.allowed g)
    (hvisits : ApplicationVisits fuel f args caller s t) : ∃ j, I.Stands j t := by
  by_contra hnone
  obtain ⟨halt, hdiffers⟩ := hvisits
  have hagrees := (agrees_breaking halt (not_exists.mp hnone) fuel).2 caller caller
    (val_self hf) (vals_self hargs)
  exact hdiffers ((eq_of_ends (hagrees i .same s s le_rfl ⟨rfl, rfl, hs⟩)).resolve_left (·.1))

/-- An invariant without conditions on functions and frames holds at rest, at the stage at which it
holds of the empty store. -/
theorem stands_atRest (hallowed : ∀ f, I.allowed f) (hwritable : ∀ frame, I.writable frame)
    (hempty : I.holds i Store.empty) (hs : AtRest s) : I.Stands i s := by
  induction hs with
  | initial characters =>
      exact stands_initial characters (fun _ => hallowed _) (fun _ => hallowed _) (hwritable _) hempty
  | register ops _ ih => exact ih.register (fun _ _ => hallowed _) (hwritable _)
  | evalText fuel code _ ih => exact ih.evalText fuel code (hwritable _)
  | evalOne fuel code _ ih => exact ih.evalOne fuel code (hwritable _)
  | load f _ ih => exact ih.load f
  | evaluate fuel e frame _ ih => exact ih.evaluate fuel (fun _ _ => hallowed _) (hwritable _)
  | apply fuel f args caller _ ih =>
      exact ih.apply fuel (fun _ _ => hallowed _) (fun _ _ => hallowed _) caller

theorem stands_reachable (hallowed : ∀ f, I.allowed f) (hwritable : ∀ frame, I.writable frame)
    (hempty : I.holds i Store.empty) (hs : Reachable s) : ∃ j, I.Stands j s := by
  cases hs with
  | rest hs => exact ⟨i, stands_atRest hallowed hwritable hempty hs⟩
  | evaluating hs hvisits =>
      exact (stands_atRest hallowed hwritable hempty hs).of_evaluationVisits
        (fun _ _ => hallowed _) (hwritable _) hvisits
  | applying hs hvisits =>
      exact (stands_atRest hallowed hwritable hempty hs).of_applicationVisits
        (fun _ _ => hallowed _) (fun _ _ => hallowed _) hvisits

end Invariant

end Bakehouse
