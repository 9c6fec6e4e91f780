import Bakehouse.Proofs.Comparison.Embedding
import Bakehouse.Proofs.Vocabulary

namespace Bakehouse.Vocabulary

open Builtin Operation

variable {V : Vocabulary} {args : List Value}

/-- Callers that do the same with functions and arguments within the vocabulary. -/
def CallAlike (V : Vocabulary) (call call' : Call) : Prop :=
  ∀ {f : Value} {args : List Value}, f.Within V → (∀ v ∈ args, v.Within V) →
    V.Alike (Value.Within V) (call f args) (call' f args)

/-- Runners of programs that do the same. -/
def TextAlike (V : Vocabulary) (runText runText' : RunText) : Prop :=
  ∀ code, V.Alike (fun _ => True) (runText code) (runText' code)

theorem keeps_expectOne (hargs : ∀ v ∈ args, v.Within V) :
    V.Keeps (Value.Within V) (expectOne args) := by
  rcases args with _ | ⟨v, _ | ⟨_, _⟩⟩
  · exact .raise _
  · exact .pure (hargs v (by simp))
  · exact .raise _

theorem keeps_expectTwo (hargs : ∀ v ∈ args, v.Within V) :
    V.Keeps (fun p => p.1.Within V ∧ p.2.Within V) (expectTwo args) := by
  rcases args with _ | ⟨v, _ | ⟨w, _ | ⟨_, _⟩⟩⟩
  · exact .raise _
  · exact .raise _
  · exact .pure ⟨hargs v (by simp), hargs w (by simp)⟩
  · exact .raise _

theorem keeps_expectAtLeast (args : List Value) (n : Nat) :
    V.Keeps (fun _ => True) (expectAtLeast args n) := by
  unfold expectAtLeast
  split
  · exact .pure trivial
  · exact .raise _

theorem keeps_expectList {v : Value} (hv : v.Within V) :
    V.Keeps (fun items => ∀ w ∈ items, w.Within V) (expectList v) := by
  cases hv with
  | list hitems => exact .pure hitems
  | _ => exact keeps_typeError _ _

theorem keeps_expectNumber (v : Value) : V.Keeps (fun _ => True) (expectNumber v) := by
  cases v with
  | number x => exact .pure trivial
  | _ => exact keeps_typeError _ _

theorem keeps_numbers (args : List Value) :
    V.Keeps (fun _ => True) (args.mapM expectNumber) :=
  (Alike.mapM fun v _ => keeps_expectNumber v).weaken fun _ _ => trivial

theorem keeps_onList {k : List Value → Run Value} (hargs : ∀ v ∈ args, v.Within V)
    (hk : ∀ items, (∀ v ∈ items, v.Within V) → V.Keeps (Value.Within V) (k items)) :
    V.Keeps (Value.Within V) (do k (← expectList (← expectOne args))) := by
  refine (keeps_expectOne hargs).bind fun v hv => ?_
  exact (keeps_expectList hv).bind hk

theorem keeps_runAdd (args : List Value) : V.Keeps (Value.Within V) (runAdd args) :=
  (keeps_numbers args).bind fun _ _ => .pure (.number _)

theorem keeps_runSub (args : List Value) : V.Keeps (Value.Within V) (runSub args) := by
  refine (keeps_numbers args).bind fun xs _ => ?_
  cases xs with
  | nil => exact .raise _
  | cons x xs => exact .pure (.number _)

theorem keeps_runEqual (args : List Value) : V.Keeps (Value.Within V) (runEqual args) := by
  refine .get_bind fun s _ => ?_
  cases args with
  | nil => exact .raise _
  | cons v others => exact .pure (.boolean _)

theorem alike_runApply {call call' : Call} (hcall : V.CallAlike call call')
    (hargs : ∀ v ∈ args, v.Within V) :
    V.Alike (Value.Within V) (runApply call args) (runApply call' args) := by
  refine (keeps_expectTwo hargs).bind fun ⟨f, xs⟩ ⟨hf, hxs⟩ => ?_
  simp only
  split
  · exact .raise _
  · cases hxs with
    | list hitems => exact hcall hf hitems
    | _ => exact .raise _

theorem keeps_runFirst (hargs : ∀ v ∈ args, v.Within V) :
    V.Keeps (Value.Within V) (runFirst args) := by
  refine keeps_onList hargs fun items hitems => .pure ?_
  cases items with
  | nil => exact Value.within_nil
  | cons v items => exact hitems v (by simp)

theorem keeps_runRest (hargs : ∀ v ∈ args, v.Within V) :
    V.Keeps (Value.Within V) (runRest args) :=
  keeps_onList hargs fun _ hitems => .pure (.list fun v hv => hitems v (List.mem_of_mem_tail hv))

theorem keeps_runButlast (hargs : ∀ v ∈ args, v.Within V) :
    V.Keeps (Value.Within V) (runButlast args) :=
  keeps_onList hargs fun _ hitems => .pure (.list fun v hv => hitems v (List.dropLast_subset _ hv))

theorem keeps_runLast (hargs : ∀ v ∈ args, v.Within V) :
    V.Keeps (Value.Within V) (runLast args) := by
  refine keeps_onList hargs fun items hitems => ?_
  cases hlast : items.getLast? with
  | none => exact .raise _
  | some v => exact .pure (hitems v (List.mem_of_getLast? hlast))

theorem keeps_runCons (hargs : ∀ v ∈ args, v.Within V) :
    V.Keeps (Value.Within V) (runCons args) := by
  refine (keeps_expectTwo hargs).bind fun ⟨v, w⟩ ⟨hv, hw⟩ => ?_
  cases hw with
  | list hitems =>
      refine .pure (.list ?_)
      simpa [hv] using hitems
  | _ => exact .raise _

theorem keeps_runIsEmpty (hargs : ∀ v ∈ args, v.Within V) :
    V.Keeps (Value.Within V) (runIsEmpty args) := by
  refine .get_bind fun s _ => ?_
  refine (keeps_expectOne hargs).bind fun v _ => ?_
  cases v with
  | list items => exact .pure (.boolean _)
  | text t => exact .pure (.boolean _)
  | dish handle => exact .pure (.boolean _)
  | _ => exact .pure Value.within_nil

theorem keeps_runDish (hargs : ∀ v ∈ args, v.Within V) :
    V.Keeps (Value.Within V) (runDish args) := by
  refine (keeps_expectOne hargs).bind fun v _ => ?_
  cases v with
  | text s => exact keeps_newDish _
  | _ => exact .raise _

theorem keeps_runRecipe (hargs : ∀ v ∈ args, v.Within V) :
    V.Keeps (Value.Within V) (runRecipe args) := by
  refine (keeps_expectAtLeast args 1).bind fun _ _ => ?_
  cases args.find? (!·.isFunction) with
  | some v => exact keeps_typeError _ _
  | none => exact .pure (.list hargs)

theorem alike_runBake {call call' : Call} (hcall : V.CallAlike call call')
    (hargs : ∀ v ∈ args, v.Within V) :
    V.Alike (Value.Within V) (runBake call args) (runBake call' args) := by
  refine (keeps_expectTwo hargs).bind fun ⟨v, w⟩ ⟨hv, hw⟩ => ?_
  cases hv with
  | list hsteps =>
      cases hw with
      | dish handle =>
          simp only
          split
          · refine (Alike.forM fun f hf => ?_).bind fun _ _ => .pure (.dish handle)
            have hdish : ∀ w ∈ [Value.dish handle], w.Within V := by
              rintro _ (_ | ⟨_, ⟨⟩⟩)
              exact .dish handle
            exact (hcall (hsteps f hf) hdish).bind fun _ _ => .pure trivial
          · exact .raise _
      | _ => exact .raise _
  | _ => exact .raise _

theorem keeps_runPrint (args : List Value) : V.Keeps (Value.Within V) (runPrint args) := by
  refine .get_bind fun s _ => ?_
  cases args with
  | nil => exact .raise _
  | cons v _ => exact (keeps_write _).bind fun _ _ => .pure Value.within_nil

theorem alike_builtin (b : Builtin) {call call' : Call} (hcall : V.CallAlike call call')
    (hargs : ∀ v ∈ args, v.Within V) :
    V.Alike (Value.Within V) (b.run call args) (b.run call' args) := by
  cases b with
  | add => exact keeps_runAdd args
  | sub => exact keeps_runSub args
  | equal => exact keeps_runEqual args
  | apply => exact alike_runApply hcall hargs
  | first => exact keeps_runFirst hargs
  | rest => exact keeps_runRest hargs
  | butlast => exact keeps_runButlast hargs
  | last => exact keeps_runLast hargs
  | isEmpty => exact keeps_runIsEmpty hargs
  | cons => exact keeps_runCons hargs
  | dish => exact keeps_runDish hargs
  | recipe => exact keeps_runRecipe hargs
  | bake => exact alike_runBake hcall hargs
  | print => exact keeps_runPrint args

theorem keeps_convert (type : ArgumentType) (v : Value) :
    V.Keeps (fun _ => True) (convert type v) := by
  cases type with
  | integer =>
      cases v with
      | number x =>
          simp only [convert, integerArgument]
          split
          · exact .pure trivial
          · exact keeps_typeError _ _
      | _ => exact keeps_typeError _ _
  | text =>
      simp only [convert, textArgument]
      split
      · exact keeps_typeError _ _
      · exact (keeps_shown v).bind fun _ _ => .pure trivial

theorem keeps_convertAll (params : List (String × ArgumentType)) (vs : List Value) :
    V.Keeps (fun _ => True) (convertAll params vs) := by
  induction params generalizing vs with
  | nil =>
      simp only [convertAll]
      exact .pure trivial
  | cons p params ih =>
      cases vs with
      | nil => exact .pure trivial
      | cons v vs =>
          simp only [convertAll]
          refine (keeps_convert p.2 v).bind fun a _ => ?_
          exact (ih vs).bind fun _ _ => .pure trivial

theorem keeps_arguments (op : Operation) (vs : List Value) :
    V.Keeps (fun _ => True) (op.arguments vs) := by
  unfold Operation.arguments
  split
  · exact (keeps_convertAll op.parameters vs).bind fun _ _ => .pure trivial
  · exact .raise _

theorem keeps_updatePayload (h : Handle) (f : Payload → Payload) :
    V.Keeps (fun _ => True) (updatePayload h f) := by
  refine .modify fun s hs => ?_
  split
  · exact hs.congr rfl
  · exact hs

variable {runText runText' : RunText} (htext : V.TextAlike runText runText')
include htext

theorem alike_runAction (h : Handle) (bag : Arguments) (action : Action) :
    V.Alike (fun _ => True) (runAction runText h bag action) (runAction runText' h bag action) := by
  induction action with
  | appendInteger name =>
      simp only [runAction]
      split
      · exact (keeps_updatePayload h _).bind fun _ _ => .pure trivial
      · exact .pure trivial
  | appendText name =>
      simp only [runAction]
      split
      · exact (keeps_updatePayload h _).bind fun _ _ => .pure trivial
      · exact .pure trivial
  | put p => exact (keeps_updatePayload h _).bind fun _ _ => .pure trivial
  | fail message => exact .pure trivial
  | raise message => exact .raise _
  | eval code => exact (htext code).bind fun _ _ => .pure trivial
  | skip => exact .pure trivial
  | both first second ihfirst ihsecond => exact ihfirst.unlessFault ihsecond
  | branch test yes no ihyes ihno =>
      simp only [runAction]
      refine .get_bind fun s _ => ?_
      split
      · exact ihyes
      · exact ihno
  | attempt body handler ihbody ihhandler => exact ihbody.recovering ihhandler

theorem alike_runActions (h : Handle) (bag : Arguments) (actions : List Action) :
    V.Alike (fun _ => True) (runActions runText h bag actions)
      (runActions runText' h bag actions) := by
  induction actions with
  | nil => exact .pure trivial
  | cons action actions ih => exact (alike_runAction htext h bag action).unlessFault ih

theorem alike_runProcedure (op : Operation) (h : Handle) (bag : Arguments) :
    V.Alike (fun _ => True) (op.runProcedure runText h bag) (op.runProcedure runText' h bag) := by
  unfold runProcedure
  cases op.procedure with
  | catalog entry =>
      refine .get_bind fun s _ => ?_
      cases s.dish h with
      | failed _ => exact .pure trivial
      | good p =>
          simp only
          split
          · exact (keeps_updatePayload h _).bind fun _ _ => .pure trivial
          · exact .pure trivial
          · exact .raise _
  | custom actions => exact alike_runActions htext h bag actions

theorem alike_applyTo (op : Operation) (bag : Arguments) (h : Handle) :
    V.Alike (Value.Within V) (op.applyTo runText bag h) (op.applyTo runText' bag h) := by
  refine .get_bind fun s _ => ?_
  cases s.dish h with
  | failed _ => exact .pure (.dish h)
  | good p =>
      simp only
      split
      · exact .raise _
      · refine (Alike.borrowing (R := fun _ => True) h ?_).bind fun _ _ => .pure (.dish h)
        refine (alike_runProcedure htext op h bag).bind fun found _ => ?_
        cases found with
        | some f => exact .modify fun s hs => hs.congr rfl
        | none => exact .pure trivial

theorem alike_applyToArguments (op : Operation) (bag : Arguments)
    (hargs : ∀ v ∈ args, v.Within V) :
    V.Alike (Value.Within V) (op.applyToArguments runText bag args)
      (op.applyToArguments runText' bag args) := by
  refine (keeps_expectOne hargs).bind fun v _ => ?_
  cases v with
  | dish h => exact alike_applyTo htext op bag h
  | _ => exact .raise _

theorem alike_native (f : Native) {call call' : Call} (hcall : V.CallAlike call call')
    (hargs : ∀ v ∈ args, v.Within V) :
    V.Alike (Value.Within V) (f.run call runText args) (f.run call' runText' args) := by
  cases f with
  | builtin b => exact alike_builtin b hcall hargs
  | operation op =>
      simp only [Native.run]
      split
      · exact alike_applyToArguments htext op _ hargs
      · refine (keeps_arguments op args).bind fun bag _ => ?_
        exact keeps_newIdentity.bind fun id _ => .pure (.native id _)
  | configured op bag => exact alike_applyToArguments htext op bag hargs

end Bakehouse.Vocabulary
