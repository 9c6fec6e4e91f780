import Bakehouse.Proofs.EvaluationRules

namespace Bakehouse

theorem apply_caller_eq (fuel : Nat) (f : Value) (args : List Value) (caller caller' : FrameId) :
    apply fuel f args caller = apply fuel f args caller' := by
  induction fuel generalizing f args with
  | zero => rw [apply, apply]
  | succ fuel ih =>
      -- The functions that `f` calls are applied on behalf of the same caller.
      have hcall : (fun g xs => apply fuel g xs caller) = fun g xs => apply fuel g xs caller' := by
        funext g xs
        exact ih g xs
      rw [apply_succ, apply_succ, hcall]

theorem finishes_apply_caller_iff {f : Value} {args : List Value} {s : Store}
    {o : Except Halt Value × Store} (caller caller' : FrameId) :
    Finishes (fun n => apply n f args caller) s o ↔
      Finishes (fun n => apply n f args caller') s o := by
  have hcallers : (fun n => apply n f args caller) = fun n => apply n f args caller' := by
    funext n
    exact apply_caller_eq n f args caller caller'
  rw [hcallers]

/-- Forms that call the same function with the same arguments do the same in different frames. -/
theorem finishes_call_congr {s : Store} {frame frame' : FrameId} {head head' f : Value}
    (hhead : SpecialForm.ofHead? head = none) (hhead' : SpecialForm.ofHead? head' = none)
    (hf : Yields s frame head f) (hf' : Yields s frame' head' f) {tail tail' args : List Value}
    (hargs : List.Forall₂ (Yields s frame) tail args)
    (hargs' : List.Forall₂ (Yields s frame') tail' args) (o : Except Halt Value × Store) :
    Finishes (fun n => evaluate n (.list (head :: tail)) frame) s o ↔
      Finishes (fun n => evaluate n (.list (head' :: tail')) frame') s o := by
  rw [finishes_call_iff hhead hf hargs, finishes_call_iff hhead' hf' hargs']
  exact finishes_apply_caller_iff frame frame'

/-- Applying a function to arguments on behalf of two frames has the same outcome: the answer or the
error, and the store with its frames, its dishes and its output. -/
theorem application_ignores_caller (f : Value) (args : List Value) (s : Store)
    (caller caller' : FrameId) :
    (∀ fuel, apply fuel f args caller s = apply fuel f args caller' s) ∧
      ∀ o, Finishes (fun n => apply n f args caller) s o ↔
        Finishes (fun n => apply n f args caller') s o := by
  constructor
  · intro fuel
    rw [apply_caller_eq fuel f args caller caller']
  · intro o
    exact finishes_apply_caller_iff caller caller'

/-- A name that is free in a function means what it meant where the function was made. -/
example :
    let x : Symbol := ⟨"x", by decide⟩
    let s : Store := { Store.empty with scopes :=
      ⟨#[⟨[(x, .boolean true)], []⟩, ⟨[(x, .boolean false)], [baseFrame]⟩]⟩ }
    (apply 3 (.native 0 (.builtin .apply)) [.lambda 1 [] (.symbol x) baseFrame, .list []] 1 s).1 =
      .ok (.boolean true) := by
  intro x s
  rfl

end Bakehouse
