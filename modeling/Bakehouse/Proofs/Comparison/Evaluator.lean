import Bakehouse.Language.Interpreter
import Bakehouse.Proofs.Comparison.Embedding

namespace Bakehouse

/-- One step of the evaluation of a form. -/
def evaluateStep (eval : Eval) (call : Call) (e : Value) (frame : FrameId) : Run Value :=
  match e with
  | .symbol x => lookupFrom frame x
  | .list [] => raise .emptyApplication
  | .list (head :: tail) =>
    match SpecialForm.ofHead? head with
    | some form => form.eval eval frame tail
    | none => do
      let f ← eval head frame
      let args ← tail.mapM fun arg => eval arg frame
      call f args
  | .lambda _ _ _ _ => raise (.type .lambdaEvaluated)
  | .native _ _ => raise (.type .functionEvaluated)
  | v => return v

/-- How an operation runs code: form by form, in the base frame. -/
def runProgram (eval : Eval) : RunText :=
  fun code => discard (runSource (fun v => eval v baseFrame) code)

/-- One step of the application of a function. -/
def applyStep (eval : Eval) (call : Call) (runText : RunText) (f : Value) (args : List Value) :
    Run Value :=
  match f with
  | .lambda _ params body outer => do
    let frame ← enter outer params args
    eval body frame
  | .native _ native => native.run call runText args
  | v => typeError .functionExpected v

theorem evaluate_succ (fuel : Nat) (e : Value) (frame : FrameId) :
    evaluate (fuel + 1) e frame =
      evaluateStep (evaluate fuel) (fun f args => apply fuel f args frame) e frame := by
  rw [evaluate.eq_def]
  rfl

theorem apply_succ (fuel : Nat) (f : Value) (args : List Value) (caller : FrameId) :
    apply (fuel + 1) f args caller =
      applyStep (evaluate fuel) (fun g xs => apply fuel g xs caller) (runProgram (evaluate fuel)) f
        args := by
  rw [apply.eq_def]
  rfl

namespace Comparison

variable {C : Comparison} {M : Matching}

theorem agrees_bindAll {frame frame' : FrameId} (hframe : M.frame frame frame')
    (hwritable : C.writable frame) (params : List Symbol) {args args' : List Value}
    (hargs : C.Vals M args args') :
    C.Agrees M Same (bindAll frame params args) (bindAll frame' params args') := by
  induction params generalizing M args args' with
  | nil =>
      simp only [bindAll]
      exact .pure fun _ _ => rfl
  | cons x params ih =>
      cases hargs with
      | nil => exact .pure fun _ _ => rfl
      | cons hv hrest =>
          simp only [bindAll]
          refine (agrees_defineIn hframe hwritable x hv).bind fun N _ _ hMN _ => ?_
          exact ih (hMN.frame hframe) (Value.AllAgree.mono hMN hrest)

theorem agrees_enter {outer outer' : FrameId} (houter : M.frame outer outer') (params : List Symbol)
    {args args' : List Value} (hargs : C.Vals M args args') :
    C.Agrees M (fun N i j => N.frame i j ∧ C.writable i) (enter outer params args)
      (enter outer' params args') := by
  simp only [enter, hargs.length_eq]
  split
  · refine (agrees_pushFrame houter).bind fun N i j hMN ⟨hframe, hwritable⟩ => ?_
    refine (agrees_bindAll hframe hwritable params (Value.AllAgree.mono hMN hargs)).bind
      fun O _ _ hNO _ => ?_
    exact .pure fun P hOP => ⟨(hNO.trans hOP).frame hframe, hwritable⟩
  · exact .raise _

theorem agrees_runForms {eval eval' : Value → Run Value}
    (heval : ∀ {N v v'}, M ≤ N → C.Code N v v' → C.Agrees N C.Val (eval v) (eval' v'))
    (error : Option ReadError) {forms : List Form}
    (hforms : ∀ f ∈ forms, ∀ x ∈ f.lookups, C.known x) {last last' : Option Value}
    (hlast : Option.Rel (C.Val M) last last') :
    C.Agrees M (fun N => Option.Rel (C.Val N)) (runForms eval last forms error)
      (runForms eval' last' forms error) := by
  induction forms generalizing M last last' with
  | nil =>
      cases error with
      | none =>
          refine .pure fun N hMN => ?_
          rcases hlast with hv | _
          · exact .some (hv.mono hMN)
          · exact .none
      | some e => exact .raise _
  | cons f forms ih =>
      simp only [List.forall_mem_cons] at hforms
      simp only [runForms]
      refine (agrees_loadCode hforms.1 M).bind fun N v v' hMN hv => ?_
      refine (heval hMN hv).bind fun O w w' hNO hw => ?_
      exact ih (fun hOP => heval ((hMN.trans hNO).trans hOP)) hforms.2 (.some hw)

theorem agrees_runSource {eval eval' : Value → Run Value}
    (heval : ∀ {N v v'}, M ≤ N → C.Code N v v' → C.Agrees N C.Val (eval v) (eval' v'))
    {code : String} (hcode : ∀ f ∈ (readAll code).1, ∀ x ∈ f.lookups, C.known x) :
    C.Agrees M (fun N => Option.Rel (C.Val N)) (runSource eval code) (runSource eval' code) :=
  agrees_runForms heval _ hcode .none

theorem agrees_runProgram {eval eval' : Eval} (heval : C.EvalAgrees eval eval') :
    C.TextAgrees (runProgram eval) (runProgram eval') := by
  intro hopen M code
  refine .of_store fun i N s t _ hst => ?_
  have hbase := C.frame_base hst
  have hrun : C.Agrees N (fun O => Option.Rel (C.Val O))
      (runSource (fun v => eval v baseFrame) code) (runSource (fun v => eval' v baseFrame) code) :=
    agrees_runSource (fun hNO hv => heval hv (hNO.frame hbase) hopen.writable)
      fun _ _ x _ => hopen.known x
  exact hrun.bind fun _ _ _ _ _ => .pure fun _ _ => rfl

theorem agrees_evaluateStep {eval eval' : Eval} {call call' : Call}
    (heval : C.EvalAgrees eval eval') (hcall : C.CallAgrees call call') {e e' : Value}
    {frame frame' : FrameId} (he : C.Code M e e') (hframe : M.frame frame frame')
    (hwritable : C.writable frame) :
    C.Agrees M C.Val (evaluateStep eval call e frame) (evaluateStep eval' call' e' frame') := by
  obtain ⟨hknown, hval⟩ := he
  cases hval with
  | number x => exact .pure fun _ _ => .number x
  | boolean b => exact .pure fun _ _ => .boolean b
  | text s => exact .pure fun _ _ => .text s
  | symbol x => exact agrees_lookupFrom hframe (hknown x (by simp [Value.lookups]))
  | dish hk => exact .pure fun _ hMN => .dish (hMN.handle hk)
  | lambda _ _ _ _ _ => exact .raise _
  | native _ _ => exact .raise _
  | list hitems =>
      cases hitems with
      | nil => exact .raise _
      | @cons head head' tail tail' hhead htail =>
          simp only [evaluateStep, ← hhead.ofHead?_eq]
          cases hform : SpecialForm.ofHead? head with
          | some form =>
              refine agrees_specialForm form heval hframe hwritable htail fun hquote x hx => ?_
              exact hknown x (Value.lookups_specialForm hform hquote ▸ hx)
          | none =>
              rw [Value.lookups_application hform] at hknown
              have hcodes := List.forall₂_cons.mp (Codes.of_vals (.cons hhead htail) hknown)
              refine (heval hcodes.1 hframe hwritable).bind fun N f f' hMN hf => ?_
              refine (Agrees.mapM (T := C.Val) (fun hle h => h.mono hle) hcodes.2
                fun O v v' hNO hv => heval (hv.mono (hMN.trans hNO))
                  ((hMN.trans hNO).frame hframe) hwritable).bind fun O args args' hNO hargs => ?_
              exact hcall (hf.mono hNO) hargs

theorem agrees_applyStep {eval eval' : Eval} {call call' : Call} {runText runText' : RunText}
    (heval : C.EvalAgrees eval eval') (hcall : C.CallAgrees call call')
    (htext : C.TextAgrees runText runText') {f f' : Value} {args args' : List Value}
    (hf : C.Val M f f') (hargs : C.Vals M args args') :
    C.Agrees M C.Val (applyStep eval call runText f args)
      (applyStep eval' call' runText' f' args') := by
  have hvalue := hf
  cases hf with
  | lambda params _ hknown hbody houter =>
      refine (agrees_enter houter params hargs).bind fun N i j hMN ⟨hframe, hwritable⟩ => ?_
      exact heval ⟨hknown, hbody.mono hMN⟩ hframe hwritable
  | native _ hallowed => exact agrees_native htext hallowed hcall hargs
  | _ => exact agrees_typeError _ hvalue

/-- Evaluation and application agree, with the same fuel on both sides or, if the comparison is
lenient, with more on the second. The callers of an application make no difference. -/
theorem agrees_evaluate_apply (C : Comparison) {n m : Nat} (hnm : n = m ∨ C.lenient ∧ n ≤ m) :
    C.EvalAgrees (evaluate n) (evaluate m) ∧
      ∀ caller caller', C.CallAgrees (fun f args => apply n f args caller)
        (fun f args => apply m f args caller') := by
  induction n generalizing m with
  | zero =>
      rcases hnm with rfl | ⟨hlenient, _⟩
      · exact ⟨fun _ _ _ _ N _ _ _ hst => .inr ⟨N, le_rfl, hst, .error _⟩,
          fun _ _ _ _ _ _ _ _ _ _ N _ _ _ hst => .inr ⟨N, le_rfl, hst, .error _⟩⟩
      · exact ⟨fun _ _ _ _ _ _ _ _ _ => .inl ⟨hlenient, rfl⟩,
          fun _ _ _ _ _ _ _ _ _ _ _ _ _ _ _ => .inl ⟨hlenient, rfl⟩⟩
  | succ n ih =>
      obtain ⟨m, rfl⟩ : ∃ k, m = k + 1 := ⟨m - 1, by omega⟩
      obtain ⟨heval, hcall⟩ := ih (hnm.imp Nat.succ.inj fun h => ⟨h.1, Nat.le_of_succ_le_succ h.2⟩)
      refine ⟨fun he hframe hwritable => ?_, fun caller caller' M f f' args args' hf hargs => ?_⟩
      · rw [evaluate_succ, evaluate_succ]
        exact agrees_evaluateStep heval (hcall _ _) he hframe hwritable
      · change C.Agrees M C.Val (apply (n + 1) f args caller) (apply (m + 1) f' args' caller')
        rw [apply_succ, apply_succ]
        exact agrees_applyStep heval (hcall _ _) (agrees_runProgram heval) hf hargs

theorem agrees_evaluate (fuel : Nat) {e e' : Value} {frame frame' : FrameId} (he : C.Code M e e')
    (hframe : M.frame frame frame') (hwritable : C.writable frame) :
    C.Agrees M C.Val (evaluate fuel e frame) (evaluate fuel e' frame') :=
  (C.agrees_evaluate_apply (.inl rfl)).1 he hframe hwritable

theorem agrees_apply (fuel : Nat) {f f' : Value} {args args' : List Value} (hf : C.Val M f f')
    (hargs : C.Vals M args args') (caller caller' : FrameId) :
    C.Agrees M C.Val (apply fuel f args caller) (apply fuel f' args' caller') :=
  (C.agrees_evaluate_apply (.inl rfl)).2 caller caller' hf hargs

theorem agrees_evalText (fuel : Nat) (code : String)
    (hcode : ∀ f ∈ (readAll code).1, ∀ x ∈ f.lookups, C.known x)
    (hbase : M.frame baseFrame baseFrame) (hwritable : C.writable baseFrame) :
    C.Agrees M (fun N => Option.Rel (C.Val N)) (evalText fuel code) (evalText fuel code) :=
  agrees_runSource (fun hMN hv => agrees_evaluate fuel hv (hMN.frame hbase) hwritable) hcode

theorem agrees_evalOne (fuel : Nat) (code : String)
    (hcode : ∀ f, read code = .ok f → ∀ x ∈ f.lookups, C.known x)
    (hbase : M.frame baseFrame baseFrame) (hwritable : C.writable baseFrame) :
    C.Agrees M C.Val (evalOne fuel code) (evalOne fuel code) := by
  unfold evalOne
  split
  · exact .raise _
  · rename_i f hread
    refine (agrees_loadCode (hcode f hread) M).bind fun N v v' hMN hv => ?_
    exact agrees_evaluate fuel hv (hMN.frame hbase) hwritable

theorem agrees_install (x : Symbol) {f : Native} (hf : C.allowed f)
    (hbase : M.frame baseFrame baseFrame) (hwritable : C.writable baseFrame) :
    C.Agrees M Same (install x f) (install x f) := by
  refine agrees_newIdentity.bind fun N a b hMN hid => ?_
  exact agrees_defineIn (hMN.frame hbase) hwritable x (.native hid hf)

theorem agrees_registerFrom (ops : List Operation) (hops : ∀ op ∈ ops, C.allowed (.operation op))
    (hbase : M.frame baseFrame baseFrame) (hwritable : C.writable baseFrame) (seen : List String) :
    C.Agrees M Same (registerFrom seen ops) (registerFrom seen ops) := by
  induction ops generalizing M seen with
  | nil => exact .pure fun _ _ => rfl
  | cons op ops ih =>
      simp only [List.forall_mem_cons] at hops
      simp only [registerFrom]
      split
      · exact .raise _
      · split
        · exact .raise _
        · rename_i x _
          refine (agrees_install x hops.1 hbase hwritable).bind fun N _ _ hMN _ => ?_
          exact ih hops.2 (hMN.frame hbase) _

theorem agrees_installBase (characters : Pattern.CharacterNames)
    (hbuiltin : ∀ b, C.allowed (.builtin b))
    (hcatalog : ∀ op : Catalog, C.allowed (.operation op.operation))
    (hbase : M.frame baseFrame baseFrame) (hwritable : C.writable baseFrame) :
    C.Agrees M Same (installBase characters) (installBase characters) := by
  have hall : List.Forall₂ Eq Builtin.all Builtin.all := List.forall₂_refl _
  refine (Agrees.forM hall fun N b b' hMN hb => ?_).bind fun N _ _ hMN _ => ?_
  · cases hb
    exact agrees_install b.symbol (hbuiltin b) (hMN.frame hbase) hwritable
  · refine agrees_registerFrom _ (fun op hop => ?_) (hMN.frame hbase) hwritable []
    obtain ⟨entry, _, rfl⟩ := List.mem_map.mp hop
    exact hcatalog entry

end Comparison

end Bakehouse
