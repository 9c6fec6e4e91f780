import Bakehouse.Proofs.Comparison.Evaluator
import Bakehouse.Proofs.Vocabulary.Builtin

/-!
Evaluation stays within a vocabulary that the reader keeps to: what is bound and answered, and also
every value that comes up on the way. A run is broken off at a moment, values included, to find out
whether the moment comes up in it.
-/

namespace Bakehouse

/-- A point of a run: the values at hand and the store. -/
structure Moment where
  held : List Value
  store : Store

open Classical in
/-- Breaks a run off if it starts or ends at the moment `stop`. A run that starts has `held` at hand,
and one that ends well has its answer. -/
noncomputable def breakingOff (stop : Moment) (halt : Halt) (held : List Value) (m : Run Value) :
    Run Value :=
  fun s =>
    if stop = ⟨held, s⟩ then (.error halt, s)
    else
      match m s with
      | (.ok v, t) => if stop = ⟨[v], t⟩ then (.error halt, t) else (.ok v, t)
      | (.error e, t) => if stop = ⟨[], t⟩ then (.error halt, t) else (.error e, t)

mutual

noncomputable def evaluateUntil (stop : Moment) (halt : Halt) : Nat → Value → FrameId → Run Value
  | 0, _, _ => throw .outOfFuel
  | fuel + 1, e, frame =>
    breakingOff stop halt [e] (evaluateStep (evaluateUntil stop halt fuel)
      (fun f args => applyUntil stop halt fuel f args frame) e frame)

noncomputable def applyUntil (stop : Moment) (halt : Halt) :
    Nat → Value → List Value → FrameId → Run Value
  | 0, _, _, _ => throw .outOfFuel
  | fuel + 1, f, args, caller =>
    breakingOff stop halt (f :: args) (applyStep (evaluateUntil stop halt fuel)
      (fun g xs => applyUntil stop halt fuel g xs caller)
      (runProgram (evaluateUntil stop halt fuel)) f args)

end

def Moment.Within (V : Vocabulary) (m : Moment) : Prop :=
  (∀ v ∈ m.held, v.Within V) ∧ m.store.Within V

namespace Vocabulary

variable {V : Vocabulary}

/-- Whatever code is read, its strings and symbols belong to the vocabulary. -/
structure Reads (V : Vocabulary) : Prop where
  one {code : String} {f : Form} (h : read code = .ok f) : f.Within V
  all {code : String} {f : Form} (h : f ∈ (readAll code).1) : f.Within V

theorem keeps_bindAll (frame : FrameId) {params : List Symbol} (hparams : ∀ x ∈ params, V.symbol x)
    {args : List Value} (hargs : ∀ v ∈ args, v.Within V) :
    V.Keeps (fun _ => True) (bindAll frame params args) := by
  induction params generalizing args with
  | nil =>
      simp only [bindAll]
      exact .pure trivial
  | cons x params ih =>
      cases args with
      | nil => exact .pure trivial
      | cons v args =>
          simp only [List.forall_mem_cons] at hparams hargs
          simp only [bindAll]
          exact (keeps_defineIn frame hparams.1 hargs.1).bind fun _ _ => ih hparams.2 hargs.2

theorem keeps_enter (outer : FrameId) {params : List Symbol} (hparams : ∀ x ∈ params, V.symbol x)
    {args : List Value} (hargs : ∀ v ∈ args, v.Within V) :
    V.Keeps (fun _ => True) (enter outer params args) := by
  unfold enter
  split
  · refine (keeps_pushFrame outer).bind fun frame _ => ?_
    exact (keeps_bindAll frame hparams hargs).bind fun _ _ => .pure trivial
  · exact .raise _

section Programs

variable {eval eval' : Value → Run Value}
  (heval : ∀ {e : Value}, e.Within V → V.Alike (Value.Within V) (eval e) (eval' e))
include heval

theorem alike_runForms (error : Option ReadError) {forms : List Form}
    (hforms : ∀ f ∈ forms, f.Within V) {last : Option Value} (hlast : ∀ v ∈ last, v.Within V) :
    V.Alike (fun answer => ∀ v ∈ answer, v.Within V) (runForms eval last forms error)
      (runForms eval' last forms error) := by
  induction forms generalizing last with
  | nil =>
      cases error with
      | none => exact .pure hlast
      | some e => exact .raise _
  | cons f forms ih =>
      simp only [List.forall_mem_cons] at hforms
      simp only [runForms]
      refine (keeps_load f hforms.1).bind fun v hv => ?_
      refine (heval hv).bind fun w hw => ih hforms.2 ?_
      rintro _ ⟨⟩
      exact hw

theorem alike_runSource (hreads : V.Reads) (code : String) :
    V.Alike (fun answer => ∀ v ∈ answer, v.Within V) (runSource eval code)
      (runSource eval' code) :=
  alike_runForms heval _ (fun _ hf => hreads.all hf) (by simp)

end Programs

section Steps

variable {eval eval' : Eval} (heval : V.EvalAlike eval eval') {call call' : Call}
  (hcall : V.CallAlike call call')
include heval

theorem alike_runProgram (hreads : V.Reads) : V.TextAlike (runProgram eval) (runProgram eval') :=
  fun code => (alike_runSource (fun he => heval baseFrame he) hreads code).bind fun _ _ =>
    .pure trivial

include hcall

theorem alike_evaluateStep {e : Value} (he : e.Within V) (frame : FrameId) :
    V.Alike (Value.Within V) (evaluateStep eval call e frame)
      (evaluateStep eval' call' e frame) := by
  cases he with
  | number x => exact .pure (.number x)
  | boolean b => exact .pure (.boolean b)
  | text hs => exact .pure (.text hs)
  | symbol hx => exact keeps_lookupFrom frame _
  | dish handle => exact .pure (.dish handle)
  | lambda _ _ _ _ => exact .raise _
  | native _ _ => exact .raise _
  | @list items hitems =>
      cases items with
      | nil => exact .raise _
      | cons head tail =>
          simp only [List.forall_mem_cons] at hitems
          simp only [evaluateStep]
          cases SpecialForm.ofHead? head with
          | some form => exact alike_specialForm form heval frame hitems.2
          | none =>
              refine (heval frame hitems.1).bind fun f hf => ?_
              refine (Alike.mapM fun arg harg => heval frame (hitems.2 arg harg)).bind
                fun args hargs => ?_
              exact hcall hf hargs

theorem alike_applyStep {runText runText' : RunText} (htext : V.TextAlike runText runText')
    {f : Value} (hf : f.Within V) {args : List Value} (hargs : ∀ v ∈ args, v.Within V) :
    V.Alike (Value.Within V) (applyStep eval call runText f args)
      (applyStep eval' call' runText' f args) := by
  cases hf with
  | lambda _ outer hparams hbody =>
      exact (keeps_enter outer hparams hargs).bind fun frame _ => heval frame hbody
  | native _ f => exact alike_native htext f hcall hargs
  | _ => exact keeps_typeError _ _

end Steps

theorem keeps_outOfFuel {α : Type} {R : α → Prop} : V.Keeps R (throw .outOfFuel : Run α) := by
  intro s hs
  exact ⟨rfl, hs, by rintro _ ⟨⟩⟩

theorem keeps_evaluate_apply (hreads : V.Reads) (fuel : Nat) :
    V.EvalAlike (evaluate fuel) (evaluate fuel) ∧
      ∀ caller, V.CallAlike (fun f args => apply fuel f args caller)
        (fun f args => apply fuel f args caller) := by
  induction fuel with
  | zero => exact ⟨fun _ _ => keeps_outOfFuel, fun _ _ _ _ _ => keeps_outOfFuel⟩
  | succ fuel ih =>
      obtain ⟨heval, hcall⟩ := ih
      refine ⟨fun frame he => ?_, fun caller f args hf hargs => ?_⟩
      · rw [evaluate_succ]
        exact alike_evaluateStep heval (hcall frame) he frame
      · simp only [apply_succ]
        exact alike_applyStep heval (hcall caller) (alike_runProgram heval hreads) hf hargs

theorem keeps_evalText (hreads : V.Reads) (fuel : Nat) (code : String) :
    V.Keeps (fun answer => ∀ v ∈ answer, v.Within V) (evalText fuel code) :=
  alike_runSource (fun he => (keeps_evaluate_apply hreads fuel).1 baseFrame he) hreads code

theorem keeps_evalOne (hreads : V.Reads) (fuel : Nat) (code : String) :
    V.Keeps (Value.Within V) (evalOne fuel code) := by
  unfold evalOne
  split
  · exact .raise _
  · rename_i f hread
    refine (keeps_load f (hreads.one hread)).bind fun e he => ?_
    exact (keeps_evaluate_apply hreads fuel).1 baseFrame he

theorem keeps_install {x : Symbol} (hx : V.symbol x) (f : Native) :
    V.Keeps (fun _ => True) (install x f) :=
  keeps_newIdentity.bind fun id _ => keeps_defineIn baseFrame hx (.native id f)

theorem keeps_registerFrom (seen : List String) {ops : List Operation}
    (hops : ∀ op ∈ ops, ∀ x ∈ Symbol.ofString? op.name, V.symbol x) :
    V.Keeps (fun _ => True) (registerFrom seen ops) := by
  induction ops generalizing seen with
  | nil => exact .pure trivial
  | cons op ops ih =>
      simp only [List.forall_mem_cons] at hops
      simp only [registerFrom]
      split
      · exact .raise _
      · split
        · exact .raise _
        · rename_i x hx
          exact (keeps_install (hops.1 x hx) _).bind fun _ _ => ih _ hops.2

theorem within_initial (characters : Pattern.CharacterNames)
    (hbuiltin : ∀ b ∈ Builtin.all, V.symbol b.symbol)
    (hcatalog : ∀ op ∈ Catalog.all characters, ∀ x ∈ Symbol.ofString? op.name, V.symbol x) :
    (Store.initial characters).Within V := by
  have hempty : Store.empty.Within V := by
    simp [Store.Within, Store.empty, Scopes.base]
  have hbase : V.Keeps (fun _ => True) (installBase characters) := by
    refine (Alike.forM fun b hb => keeps_install (hbuiltin b hb) _).bind fun _ _ => ?_
    refine keeps_registerFrom [] fun op hop => ?_
    obtain ⟨entry, hentry, rfl⟩ := List.mem_map.mp hop
    exact hcatalog entry hentry
  exact (hbase _ hempty).2.1

section Moments

variable {stop : Moment} (halt : Halt) (hstop : ¬ stop.Within V)
include hstop

theorem alike_breakingOff {held : List Value} (hheld : ∀ v ∈ held, v.Within V) {m m' : Run Value}
    (h : V.Alike (Value.Within V) m m') :
    V.Alike (Value.Within V) (breakingOff stop halt held m) m' := by
  intro s hs
  have hstart : stop ≠ ⟨held, s⟩ := by
    rintro rfl
    exact hstop ⟨hheld, hs⟩
  obtain ⟨heq, hwithin, hanswer⟩ := h s hs
  refine ⟨?_, hwithin, hanswer⟩
  simp only [breakingOff, if_neg hstart, heq]
  generalize m' s = o at hwithin hanswer
  rcases o with ⟨e | v, t⟩
  · have hend : stop ≠ ⟨[], t⟩ := by
      rintro rfl
      exact hstop ⟨by simp, hwithin⟩
    exact if_neg hend
  · have hend : stop ≠ ⟨[v], t⟩ := by
      rintro rfl
      exact hstop ⟨by simpa using hanswer v rfl, hwithin⟩
    exact if_neg hend

theorem alike_until (hreads : V.Reads) (fuel : Nat) :
    V.EvalAlike (evaluateUntil stop halt fuel) (evaluate fuel) ∧
      ∀ caller, V.CallAlike (fun f args => applyUntil stop halt fuel f args caller)
        (fun f args => apply fuel f args caller) := by
  induction fuel with
  | zero => exact ⟨fun _ _ => keeps_outOfFuel, fun _ _ _ _ _ => keeps_outOfFuel⟩
  | succ fuel ih =>
      obtain ⟨heval, hcall⟩ := ih
      refine ⟨fun frame he => ?_, fun caller f args hf hargs => ?_⟩
      · rw [evaluate_succ]
        simp only [evaluateUntil]
        refine alike_breakingOff halt hstop (by simpa using he) ?_
        exact alike_evaluateStep heval (hcall frame) he frame
      · simp only [apply_succ, applyUntil]
        refine alike_breakingOff halt hstop (by simpa [hf] using hargs) ?_
        exact alike_applyStep heval (hcall caller) (alike_runProgram heval hreads) hf hargs

end Moments

end Vocabulary

end Bakehouse
