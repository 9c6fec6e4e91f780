import Bakehouse.Proofs.Comparison

namespace Bakehouse.Comparison

variable {C : Comparison} {M : Matching}

theorem store_display_eq {i : C.Stage} {s t : Store} {v v' : Value} (hst : C.store i M s t)
    (hv : C.Val M v v') : s.display v = t.display v' :=
  hv.matches.display_eq (C.dish_eq hst) false

theorem agrees_shown {v v' : Value} (hv : C.Val M v v') : C.Agrees M Same (shown v) (shown v') := by
  refine .get_bind fun i N s t hMN hst => ?_
  exact .pure fun _ _ => store_display_eq hst (hv.mono hMN)

theorem agrees_typeError {α β : Type} {R : Matching → α → β → Prop} (make : String → TypeError)
    {v v' : Value} (hv : C.Val M v v') : C.Agrees M R (typeError make v) (typeError make v') := by
  refine (agrees_shown hv).bind fun N text text' _ htext => ?_
  cases htext
  exact .raise _

theorem agrees_newIdentity :
    C.Agrees M (fun N a b => N.identity a b) newIdentity newIdentity := by
  intro i N s t _ hst
  obtain ⟨O, hNO, hid, hst'⟩ := C.store_newIdentity hst
  exact .inr ⟨O, hNO, hst', .ok hid⟩

theorem agrees_newDish (p : Payload) : C.Agrees M C.Val (newDish p) (newDish p) := by
  intro i N s t _ hst
  obtain ⟨O, hNO, hhandle, hst'⟩ := C.store_newDish p hst
  exact .inr ⟨O, hNO, hst', .ok (.dish hhandle)⟩

theorem agrees_write (text : String) : C.Agrees M Same (write text) (write text) :=
  fun _ N _ _ _ hst => .inr ⟨N, le_rfl, C.store_write text hst, .ok rfl⟩

theorem agrees_pushFrame {e e' : FrameId} (he : M.frame e e') :
    C.Agrees M (fun N i j => N.frame i j ∧ C.writable i) (pushFrame e) (pushFrame e') := by
  intro i N s t hMN hst
  obtain ⟨O, hNO, hframe, hwritable, hst'⟩ := C.store_push hst (hMN.frame he)
  exact .inr ⟨O, hNO, hst', .ok ⟨hframe, hwritable⟩⟩

theorem agrees_defineIn {e e' : FrameId} (he : M.frame e e') (hwritable : C.writable e) (x : Symbol)
    {v v' : Value} (hv : C.Val M v v') :
    C.Agrees M Same (defineIn e x v) (defineIn e' x v') :=
  fun _ N _ _ hMN hst =>
    .inr ⟨N, le_rfl, C.store_define x hst (hMN.frame he) hwritable (hv.mono hMN), .ok rfl⟩

theorem agrees_lookupFrom {e e' : FrameId} (he : M.frame e e') {x : Symbol} (hx : C.known x) :
    C.Agrees M C.Val (lookupFrom e x) (lookupFrom e' x) := by
  refine .get_bind fun i N s t hMN hst => ?_
  have hlookup := C.store_lookup hst (hMN.frame he) hx
  revert hlookup
  generalize s.scopes.lookup? e x = found, t.scopes.lookup? e' x = found'
  rintro (hv | _)
  · exact .pure fun O hNO => hv.mono hNO
  · exact .raise _

mutual

theorem agrees_load : ∀ (f : Form) (M : Matching), C.Agrees M C.Val f.load f.load
  | .number x, _ => .pure fun _ _ => .number x
  | .boolean b, _ => .pure fun _ _ => .boolean b
  | .text s, _ => .pure fun _ _ => .text s
  | .symbol x, _ => .pure fun _ _ => .symbol x
  | .list items, M => by
      simp only [Form.load]
      exact (agrees_loadAll items M).bind fun _ _ _ _ hvs =>
        .pure fun _ hNO => .list (Value.AllAgree.mono hNO hvs)
  | .dish p, _ => agrees_newDish p

theorem agrees_loadAll :
    ∀ (fs : List Form) (M : Matching), C.Agrees M C.Vals (Form.loadAll fs) (Form.loadAll fs)
  | [], _ => .pure fun _ _ => .nil
  | f :: fs, M => by
      simp only [Form.loadAll]
      refine (agrees_load f M).bind fun N v v' _ hv => ?_
      refine (agrees_loadAll fs N).bind fun O vs vs' hNO hvs => ?_
      exact .pure fun P hOP => .cons (hv.mono (hNO.trans hOP)) (Value.AllAgree.mono hOP hvs)

end

theorem ofHead?_of_load {f : Form} {s t : Store} {v : Value} (h : f.load s = (.ok v, t)) :
    SpecialForm.ofHead? v = f.specialForm? := by
  cases f with
  | list items =>
      obtain ⟨vs, u, _, hv⟩ := Run.bind_eq_ok h
      cases hv
      rfl
  | _ =>
      cases h
      rfl

mutual

theorem lookups_of_load : ∀ (f : Form) {s t : Store} {v : Value}, f.load s = (.ok v, t) →
    v.lookups = f.lookups
  | .number _, _, _, _, h | .boolean _, _, _, _, h | .text _, _, _, _, h | .symbol _, _, _, _, h
  | .dish _, _, _, _, h => by
      cases h
      rfl
  | .list [], _, _, _, h => by
      cases h
      rfl
  | .list (f :: fs), s, t, v, h => by
      obtain ⟨vs, u, hvs, hv⟩ := Run.bind_eq_ok h
      cases hv
      obtain ⟨w, s', hw, hrest⟩ := Run.bind_eq_ok hvs
      obtain ⟨ws, t', hws, hvs⟩ := Run.bind_eq_ok hrest
      cases hvs
      simp only [Value.lookups, Form.lookups, ofHead?_of_load hw, lookups_of_load f hw,
        lookupsAll_of_loadAll fs hws]

theorem lookupsAll_of_loadAll : ∀ (fs : List Form) {s t : Store} {vs : List Value},
    Form.loadAll fs s = (.ok vs, t) → Value.lookupsAll vs = Form.lookupsAll fs
  | [], _, _, _, h => by
      cases h
      rfl
  | f :: fs, s, t, vs, h => by
      obtain ⟨v, s', hv, hrest⟩ := Run.bind_eq_ok h
      obtain ⟨ws, t', hws, hvs⟩ := Run.bind_eq_ok hrest
      cases hvs
      simp only [Value.lookupsAll, Form.lookupsAll, lookups_of_load f hv,
        lookupsAll_of_loadAll fs hws]

end

theorem agrees_loadCode {f : Form} (hf : ∀ x ∈ f.lookups, C.known x) (M : Matching) :
    C.Agrees M C.Code f.load f.load :=
  ((agrees_load f M).and_left (P := fun v => ∀ x ∈ v.lookups, C.known x)
    fun h => by rwa [lookups_of_load f h]).weaken fun _ _ _ _ h => ⟨h.1, h.2⟩

/-- Evaluators that agree on code in matching frames, where definitions may be made. -/
def EvalAgrees (C : Comparison) (eval eval' : Eval) : Prop :=
  ∀ {M : Matching} {e e' : Value} {frame frame' : FrameId},
    C.Code M e e' → M.frame frame frame' → C.writable frame →
      C.Agrees M C.Val (eval e frame) (eval' e' frame')

section SpecialForms

open SpecialForm

theorem agrees_parameters {v v' : Value} (hv : C.Val M v v') :
    C.Agrees M Same (parameters v) (parameters v') := by
  refine .get_bind fun i N s t hMN hst => ?_
  have hbare := (hv.mono hMN).matches.bare_eq (C.dish_eq hst)
  cases hv with
  | list hitems =>
      refine (Agrees.mapM (T := Same) (fun _ h => h) hitems fun O item item' hNO hitem => ?_).weaken
        fun _ _ _ _ h => by simpa only [Same, List.forall₂_eq_eq_eq] using h
      have hbare' := (hitem.mono hMN).matches.bare_eq (C.dish_eq hst)
      cases hitem with
      | symbol x => exact .pure fun _ _ => rfl
      | _ =>
          simp only [hbare']
          exact .raise _
  | _ =>
      simp only [hbare]
      exact .raise _

theorem agrees_makeLambda {params params' body body' : Value} {frame frame' : FrameId}
    (hparams : C.Val M params params') (hbody : C.Code M body body')
    (hframe : M.frame frame frame') :
    C.Agrees M C.Val (makeLambda params body frame) (makeLambda params' body' frame') := by
  refine (agrees_parameters hparams).bind fun N names names' hMN hnames => ?_
  cases hnames
  refine agrees_newIdentity.bind fun O a b hNO hid => ?_
  exact .pure fun P hOP => .lambda names (hOP.identity hid) hbody.known
    (hbody.val.mono (hMN.trans (hNO.trans hOP))) ((hMN.trans (hNO.trans hOP)).frame hframe)

theorem agrees_expectSymbol {v v' : Value} (hv : C.Val M v v') :
    C.Agrees M Same (expectSymbol v) (expectSymbol v') := by
  have hvalue := hv
  cases hv with
  | symbol x => exact .pure fun _ _ => rfl
  | _ => exact agrees_typeError _ hvalue

theorem agrees_evalQuote {tail tail' : List Value} (htail : C.Vals M tail tail') :
    C.Agrees M C.Val (evalQuote tail) (evalQuote tail') := by
  have hlength := htail.length_eq
  cases htail with
  | nil => exact .raise _
  | cons hx hrest =>
      cases hrest with
      | nil => exact .pure fun N hMN => hx.mono hMN
      | cons _ _ =>
          simp only [evalQuote, hlength]
          exact .raise _

theorem agrees_evalFunction {frame frame' : FrameId} (hframe : M.frame frame frame')
    {tail tail' : List Value} (htail : C.Codes M tail tail') :
    C.Agrees M C.Val (evalFunction frame tail) (evalFunction frame' tail') := by
  rcases htail with _ | ⟨hparams, _ | ⟨hbody, _ | ⟨_, _⟩⟩⟩
  · exact .raise _
  · exact .raise _
  · exact agrees_makeLambda hparams.val hbody hframe
  · exact .raise _

theorem agrees_evalDefine {eval eval' : Eval} (heval : C.EvalAgrees eval eval')
    {frame frame' : FrameId} (hframe : M.frame frame frame') (hwritable : C.writable frame)
    {tail tail' : List Value} (htail : C.Codes M tail tail') :
    C.Agrees M C.Val (evalDefine eval frame tail) (evalDefine eval' frame' tail') := by
  have hlength := htail.length_eq
  rcases htail with _ | ⟨hname, _ | ⟨hvalue, _ | ⟨_, _⟩⟩⟩
  · exact .raise _
  · exact .raise _
  · refine (agrees_expectSymbol hname.val).bind fun N x x' hMN hx => ?_
    cases hx
    refine (heval (hvalue.mono hMN) (hMN.frame hframe) hwritable).bind fun O v v' hNO hv => ?_
    refine (agrees_defineIn ((hMN.trans hNO).frame hframe) hwritable x hv).bind fun _ _ _ _ _ => ?_
    exact .pure fun _ _ => .symbol x
  · simp only [evalDefine, hlength]
    exact .raise _

theorem agrees_evalDefineFunction {frame frame' : FrameId} (hframe : M.frame frame frame')
    (hwritable : C.writable frame) {tail tail' : List Value} (htail : C.Codes M tail tail') :
    C.Agrees M C.Val (evalDefineFunction frame tail) (evalDefineFunction frame' tail') := by
  have hlength := htail.length_eq
  rcases htail with _ | ⟨hname, _ | ⟨hparams, _ | ⟨hbody, _ | ⟨_, _⟩⟩⟩⟩
  · exact .raise _
  · exact .raise _
  · exact .raise _
  · refine (agrees_expectSymbol hname.val).bind fun N x x' hMN hx => ?_
    cases hx
    refine (agrees_makeLambda (hparams.val.mono hMN) (hbody.mono hMN) (hMN.frame hframe)).bind
      fun O v v' hNO hv => ?_
    refine (agrees_defineIn ((hMN.trans hNO).frame hframe) hwritable x hv).bind fun _ _ _ _ _ => ?_
    exact .pure fun _ _ => .symbol x
  · simp only [evalDefineFunction, hlength]
    exact .raise _

theorem agrees_evalConditional {eval eval' : Eval} (heval : C.EvalAgrees eval eval')
    {frame frame' : FrameId} (hframe : M.frame frame frame') (hwritable : C.writable frame)
    {tail tail' : List Value} (htail : C.Codes M tail tail') :
    C.Agrees M C.Val (evalConditional eval frame tail) (evalConditional eval' frame' tail') := by
  cases htail with
  | nil => exact .raise _
  | cons htest hbranches =>
      simp only [evalConditional, hbranches.length_eq]
      split
      · exact .raise _
      · refine (heval htest hframe hwritable).bind fun N v v' hMN hv => ?_
        have htestN := htest.val.mono hMN
        cases hv with
        | boolean b =>
            -- Both runs choose by the same truth value, so they look for the same branch.
            cases b with
            | true =>
                rcases hbranches with _ | ⟨hyes, _⟩
                · exact .raise _
                · exact heval (hyes.mono hMN) (hMN.frame hframe) hwritable
            | false =>
                rcases hbranches with _ | ⟨_, _ | ⟨hno, _⟩⟩
                · exact .raise _
                · exact .raise _
                · exact heval (hno.mono hMN) (hMN.frame hframe) hwritable
        | _ => exact agrees_typeError _ htestN

theorem agrees_specialForm (form : SpecialForm) {eval eval' : Eval}
    (heval : C.EvalAgrees eval eval') {frame frame' : FrameId} (hframe : M.frame frame frame')
    (hwritable : C.writable frame) {tail tail' : List Value} (htail : C.Vals M tail tail')
    (hknown : form ≠ .quote → ∀ x ∈ Value.lookupsAll tail, C.known x) :
    C.Agrees M C.Val (form.eval eval frame tail) (form.eval eval' frame' tail') := by
  have hcodes (hform : form ≠ .quote) := Codes.of_vals htail (hknown hform)
  cases form with
  | quote => exact agrees_evalQuote htail
  | function => exact agrees_evalFunction hframe (hcodes nofun)
  | define => exact agrees_evalDefine heval hframe hwritable (hcodes nofun)
  | defineFunction => exact agrees_evalDefineFunction hframe hwritable (hcodes nofun)
  | conditional => exact agrees_evalConditional heval hframe hwritable (hcodes nofun)

end SpecialForms

end Bakehouse.Comparison
