import Bakehouse.Proofs.Comparison.Builtin

namespace Bakehouse.Comparison

open Operation

variable {C : Comparison} {M : Matching}

/-- Runners of programs that agree wherever programs may be run. -/
def TextAgrees (C : Comparison) (runText runText' : RunText) : Prop :=
  C.Open → ∀ (M : Matching) (code : String),
    C.Agrees M Same (runText code) (runText' code)

theorem agrees_integerArgument {v v' : Value} (hv : C.Val M v v') :
    C.Agrees M Same (integerArgument v) (integerArgument v') := by
  have hvalue := hv
  cases hv with
  | number x =>
      simp only [integerArgument]
      split
      · exact .pure fun _ _ => rfl
      · exact agrees_typeError _ hvalue
  | _ => exact agrees_typeError _ hvalue

theorem agrees_textArgument {v v' : Value} (hv : C.Val M v v') :
    C.Agrees M Same (textArgument v) (textArgument v') := by
  simp only [textArgument, hv.matches.isFunction_eq]
  split
  · exact agrees_typeError _ hv
  · refine (agrees_shown hv).bind fun N text text' _ htext => ?_
    cases htext
    exact .pure fun _ _ => rfl

theorem agrees_convert (type : ArgumentType) {v v' : Value} (hv : C.Val M v v') :
    C.Agrees M Same (convert type v) (convert type v') := by
  cases type with
  | integer => exact agrees_integerArgument hv
  | text => exact agrees_textArgument hv

theorem agrees_convertAll (params : List (String × ArgumentType)) {vs vs' : List Value}
    (hvs : C.Vals M vs vs') :
    C.Agrees M Same (convertAll params vs) (convertAll params vs') := by
  induction params generalizing M vs vs' with
  | nil =>
      simp only [convertAll]
      exact .pure fun _ _ => rfl
  | cons p params ih =>
      cases hvs with
      | nil => exact .pure fun _ _ => rfl
      | cons hv hrest =>
          simp only [convertAll]
          refine (agrees_convert p.2 hv).bind fun N a a' hMN ha => ?_
          cases ha
          refine (ih (Value.AllAgree.mono hMN hrest)).bind fun O entries entries' _ hentries => ?_
          cases hentries
          exact .pure fun _ _ => rfl

theorem agrees_arguments (op : Operation) {vs vs' : List Value} (hvs : C.Vals M vs vs') :
    C.Agrees M Same (op.arguments vs) (op.arguments vs') := by
  simp only [Operation.arguments, hvs.length_eq]
  split
  · refine (agrees_convertAll op.parameters hvs).bind fun N entries entries' _ hentries => ?_
    cases hentries
    exact .pure fun _ _ => rfl
  · exact .raise _

theorem updatePayload_good (f : Payload → Payload) {h : Handle} {s : Store} {p : Payload}
    (hgood : s.dish h = .good p) : updatePayload h f s = (.ok (), s.setDish h (.good (f p))) := by
  change (Except.ok (), _) = _
  simp only [hgood]

theorem updatePayload_failed (f : Payload → Payload) {h : Handle} {s : Store} {fault : Fault}
    (hfailed : s.dish h = .failed fault) : updatePayload h f s = (.ok (), s) := by
  change (Except.ok (), _) = _
  simp only [hfailed]

theorem agrees_updatePayload {h k : Handle} (hk : M.handle h k) (f : Payload → Payload) :
    C.Agrees M Same (updatePayload h f) (updatePayload k f) := by
  intro i N s t hMN hst
  have hdish := C.dish_eq hst (hMN.handle hk)
  cases hp : s.dish h with
  | good p =>
      rw [updatePayload_good f hp, updatePayload_good f (hdish ▸ hp)]
      exact .inr ⟨N, le_rfl, C.store_payload (f p) hst (hMN.handle hk) hp, .ok rfl⟩
  | failed fault =>
      rw [updatePayload_failed f hp, updatePayload_failed f (hdish ▸ hp)]
      exact .inr ⟨N, le_rfl, hst, .ok rfl⟩

theorem applyTo_failed (op : Operation) (runText : RunText) (bag : Arguments) {h : Handle}
    {s : Store} {f : Fault} (hfailed : s.dish h = .failed f) :
    op.applyTo runText bag h s = (.ok (.dish h), s) := by
  simp only [applyTo, Run.get_bind_apply, hfailed]
  rfl

theorem applyTo_borrowed (op : Operation) (runText : RunText) (bag : Arguments) {h : Handle}
    {s : Store} {p : Payload} (hgood : s.dish h = .good p) (hborrowed : s.isBorrowed h = true) :
    op.applyTo runText bag h s = (.error (.error .borrowed), s) := by
  simp only [applyTo, Run.get_bind_apply, hgood, hborrowed]
  rfl

theorem applyTo_free (op : Operation) (runText : RunText) (bag : Arguments) {h : Handle}
    {s : Store} {p : Payload} (hgood : s.dish h = .good p) (hfree : s.isBorrowed h = false) :
    op.applyTo runText bag h s =
      (do
        borrowing h do
          match ← op.runProcedure runText h bag with
          | some f => modify fun s => s.setDish h (.failed f)
          | none => pure ()
        return .dish h : Run Value) s := by
  simp only [applyTo, Run.get_bind_apply, hgood, hfree]
  rfl

theorem Agrees.unlessFault {first first' second second' : Run (Option Fault)}
    (hfirst : C.Agrees M Same first first')
    (hsecond : ∀ N, M ≤ N → C.Agrees N Same second second') :
    C.Agrees M Same (unlessFault first second) (unlessFault first' second') := by
  refine hfirst.bind fun N found found' hMN hfound => ?_
  cases hfound
  cases found with
  | some f => exact .pure fun _ _ => rfl
  | none => exact hsecond N hMN

theorem Agrees.recovering {α : Type} {m m' handler handler' : Run α} (hm : C.Agrees M Same m m')
    (hhandler : ∀ N, M ≤ N → C.Agrees N Same handler handler') :
    C.Agrees M Same (recovering m handler) (recovering m' handler') := by
  intro i N s t hMN hst
  have hrun := hm i N s t hMN hst
  simp only [Operation.recovering]
  revert hrun
  generalize m s = o, m' t = o'
  rcases o with ⟨r, s'⟩
  rcases o' with ⟨r', t'⟩
  rintro (⟨hlenient, hfuel⟩ | ⟨O, hNO, hst', hcorr⟩)
  · cases hfuel
    exact .inl ⟨hlenient, rfl⟩
  · cases hcorr with
    | ok hab => exact .inr ⟨O, hNO, hst', .ok hab⟩
    | error e =>
        cases e with
        | outOfFuel => exact .inr ⟨O, hNO, hst', .error _⟩
        | error e =>
            simp only
            split
            · exact (hhandler O (hMN.trans hNO) i O s' t' le_rfl hst').of_le hNO
            · exact .inr ⟨O, hNO, hst', .error _⟩

variable {runText runText' : RunText} (htext : C.TextAgrees runText runText')
include htext

theorem agrees_runAction {h k : Handle} (hk : M.handle h k) (bag : Arguments) (action : Action)
    (hbase : action.reenters = true → C.Open) :
    C.Agrees M Same (runAction runText h bag action) (runAction runText' k bag action) := by
  induction action generalizing M with
  | appendInteger name =>
      simp only [runAction]
      split
      · exact (agrees_updatePayload hk _).bind fun _ _ _ _ _ => .pure fun _ _ => rfl
      · exact .pure fun _ _ => rfl
  | appendText name =>
      simp only [runAction]
      split
      · exact (agrees_updatePayload hk _).bind fun _ _ _ _ _ => .pure fun _ _ => rfl
      · exact .pure fun _ _ => rfl
  | put p => exact (agrees_updatePayload hk _).bind fun _ _ _ _ _ => .pure fun _ _ => rfl
  | fail message => exact .pure fun _ _ => rfl
  | raise message => exact .raise _
  | eval code => exact (htext (hbase rfl) M code).bind fun _ _ _ _ _ => .pure fun _ _ => rfl
  | skip => exact .pure fun _ _ => rfl
  | both first second ihfirst ihsecond =>
      simp only [Action.reenters, Bool.or_eq_true, or_imp] at hbase
      exact (ihfirst hk hbase.1).unlessFault fun N hMN => ihsecond (hMN.handle hk) hbase.2
  | branch test yes no ihyes ihno =>
      simp only [Action.reenters, Bool.or_eq_true, or_imp] at hbase
      simp only [runAction]
      refine .get_bind fun i N s t hMN hst => ?_
      rw [← C.dish_eq hst (hMN.handle hk)]
      split
      · exact ihyes (hMN.handle hk) hbase.1
      · exact ihno (hMN.handle hk) hbase.2
  | attempt body handler ihbody ihhandler =>
      simp only [Action.reenters, Bool.or_eq_true, or_imp] at hbase
      exact (ihbody hk hbase.1).recovering fun N hMN => ihhandler (hMN.handle hk) hbase.2

theorem agrees_runActions {h k : Handle} (hk : M.handle h k) (bag : Arguments)
    (actions : List Action) (hbase : actions.any (·.reenters) = true → C.Open) :
    C.Agrees M Same (runActions runText h bag actions) (runActions runText' k bag actions) := by
  induction actions generalizing M with
  | nil => exact .pure fun _ _ => rfl
  | cons action actions ih =>
      simp only [List.any_cons, Bool.or_eq_true, or_imp] at hbase
      exact (agrees_runAction htext hk bag action hbase.1).unlessFault fun N hMN =>
        ih (hMN.handle hk) hbase.2

theorem agrees_runProcedure (op : Operation) {h k : Handle} (hk : M.handle h k) (bag : Arguments)
    (hbase : op.reenters = true → C.Open) :
    C.Agrees M Same (op.runProcedure runText h bag) (op.runProcedure runText' k bag) := by
  cases hprocedure : op.procedure with
  | catalog entry =>
      simp only [runProcedure, hprocedure]
      refine .get_bind fun i N s t hMN hst => ?_
      rw [← C.dish_eq hst (hMN.handle hk)]
      cases s.dish h with
      | failed _ => exact .pure fun _ _ => rfl
      | good p =>
          simp only
          split
          · exact (agrees_updatePayload (hMN.handle hk) _).bind fun _ _ _ _ _ =>
              .pure fun _ _ => rfl
          · exact .pure fun _ _ => rfl
          · exact .raise _
  | custom actions =>
      simp only [Operation.reenters, hprocedure] at hbase
      simp only [runProcedure, hprocedure]
      exact agrees_runActions htext hk bag actions hbase

theorem ends_borrowing (op : Operation) {h k : Handle} (bag : Arguments)
    (hbase : op.reenters = true → C.Open) {g : Native} (hg : C.allowed g)
    (hspoils : ∀ f, op.Finds bag f → g.Spoils f) {i : C.Stage} {s t : Store} {p : Payload}
    (hst : C.store i M s t) (hk : M.handle h k) (hgood : s.dish h = .good p)
    (hfree : s.isBorrowed h = false) :
    C.Ends i M Same
      (borrowing h (do
        match ← op.runProcedure runText h bag with
        | some f => modify fun s => s.setDish h (.failed f)
        | none => pure ()) s)
      (borrowing k (do
        match ← op.runProcedure runText' k bag with
        | some f => modify fun s => s.setDish k (.failed f)
        | none => pure ()) t) := by
  obtain ⟨j, hborrowed, hrelease⟩ := C.store_borrow hst hk hgood hfree
  have hrun := agrees_runProcedure htext op hk bag hbase j M _ _ le_rfl hborrowed
  have hfinds : ∀ f, (op.runProcedure runText h bag (s.setBorrowed h true)).1 = .ok (some f) →
      g.Spoils f := fun f hf => hspoils f ⟨runText, h, _, _, Prod.ext hf rfl⟩
  simp only [borrowing, Run.bind_apply]
  revert hrun hfinds
  generalize op.runProcedure runText h bag (s.setBorrowed h true) = o,
    op.runProcedure runText' k bag (t.setBorrowed k true) = o'
  rcases o with ⟨r, s'⟩
  rcases o' with ⟨r', t'⟩
  rintro (⟨hlenient, hfuel⟩ | ⟨N, hMN, hst', hcorr⟩) hfinds
  · cases hfuel
    exact .inl ⟨hlenient, rfl⟩
  · obtain ⟨hplain, hspoilt⟩ := hrelease hMN hst'
    cases hcorr with
    | error e => exact .inr ⟨N, hMN, hplain, .error e⟩
    | @ok found _ hfound =>
        cases hfound
        cases found with
        | none => exact .inr ⟨N, hMN, hplain, .ok rfl⟩
        | some f => exact .inr ⟨N, hMN, hspoilt hg (hfinds f rfl), .ok rfl⟩

theorem agrees_applyTo (op : Operation) (bag : Arguments) {h k : Handle} (hk : M.handle h k)
    (hbase : op.reenters = true → C.Open) {g : Native} (hg : C.allowed g)
    (hspoils : ∀ f, op.Finds bag f → g.Spoils f) :
    C.Agrees M C.Val (op.applyTo runText bag h) (op.applyTo runText' bag k) := by
  intro i N s t hMN hst
  have hkN := hMN.handle hk
  have hdish := C.dish_eq hst hkN
  have hborrowed := C.borrowed_eq hst hkN
  cases hgood : s.dish h with
  | failed f =>
      rw [applyTo_failed op _ bag hgood, applyTo_failed op _ bag (hdish.symm.trans hgood)]
      exact .pure hst (.dish hkN)
  | good p =>
      cases hfree : s.isBorrowed h with
      | true =>
          rw [applyTo_borrowed op _ bag hgood hfree,
            applyTo_borrowed op _ bag (hdish.symm.trans hgood) (hborrowed.symm.trans hfree)]
          exact .inr ⟨N, le_rfl, hst, .error _⟩
      | false =>
          rw [applyTo_free op _ bag hgood hfree,
            applyTo_free op _ bag (hdish.symm.trans hgood) (hborrowed.symm.trans hfree)]
          refine (ends_borrowing htext op bag hbase hg hspoils hst hkN hgood hfree).bind ?_
          intro O _ _ s' t' hNO _ hst'
          exact .pure hst' (.dish (hNO.handle hkN))

theorem agrees_applyToArguments (op : Operation) (bag : Arguments) {args args' : List Value}
    (hargs : C.Vals M args args') (hbase : op.reenters = true → C.Open) {g : Native}
    (hg : C.allowed g) (hspoils : ∀ f, op.Finds bag f → g.Spoils f) :
    C.Agrees M C.Val (op.applyToArguments runText bag args)
      (op.applyToArguments runText' bag args') := by
  refine (agrees_expectOne hargs).bind fun N v v' hMN hv => ?_
  cases hv with
  | dish hk => exact agrees_applyTo htext op bag (hMN.handle hk) hbase hg hspoils
  | _ => exact .raise _

theorem agrees_native {f : Native} (hf : C.allowed f) {call call' : Call}
    (hcall : C.CallAgrees call call') {args args' : List Value} (hargs : C.Vals M args args') :
    C.Agrees M C.Val (f.run call runText args) (f.run call' runText' args') := by
  have hbase := C.open_of_reenters hf
  cases f with
  | builtin b => exact agrees_builtin b hcall hargs
  | operation op =>
      simp only [Native.run]
      split
      · rename_i harity
        exact agrees_applyToArguments htext op _ hargs hbase hf fun _ hfinds => ⟨harity, hfinds⟩
      · have hmakes := (agrees_arguments op hargs).and_left (P := op.Makes) fun h => ⟨_, _, _, h⟩
        refine hmakes.bind fun N bag bag' hMN hbag => ?_
        obtain ⟨hbag, rfl⟩ := hbag
        refine agrees_newIdentity.bind fun O a b hNO hid => ?_
        exact .pure fun P hOP => .native (hOP.identity hid) (C.configured hbag hf)
  | configured op bag =>
      exact agrees_applyToArguments htext op bag hargs hbase hf fun _ hfinds => hfinds

end Bakehouse.Comparison
