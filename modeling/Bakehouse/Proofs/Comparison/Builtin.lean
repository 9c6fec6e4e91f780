import Bakehouse.Proofs.Comparison.Store

namespace Bakehouse.Comparison

open Builtin

variable {C : Comparison} {M : Matching} {args args' : List Value}

/-- Callers that agree on matching functions and arguments. -/
def CallAgrees (C : Comparison) (call call' : Call) : Prop :=
  ∀ {M : Matching} {f f' : Value} {args args' : List Value},
    C.Val M f f' → C.Vals M args args' → C.Agrees M C.Val (call f args) (call' f' args')

theorem agrees_expectOne (hargs : C.Vals M args args') :
    C.Agrees M (fun _ => C.Val M) (expectOne args) (expectOne args') := by
  have hlength := hargs.length_eq
  rcases hargs with _ | ⟨hv, _ | ⟨_, _⟩⟩
  · exact .raise _
  · exact .pure fun _ _ => hv
  · simp only [expectOne, hlength]
    exact .raise _

theorem agrees_expectTwo (hargs : C.Vals M args args') :
    C.Agrees M (fun _ p q => C.Val M p.1 q.1 ∧ C.Val M p.2 q.2) (expectTwo args)
      (expectTwo args') := by
  have hlength := hargs.length_eq
  rcases hargs with _ | ⟨hv, _ | ⟨hw, _ | ⟨_, _⟩⟩⟩
  · exact .raise _
  · exact .raise _
  · exact .pure fun _ _ => ⟨hv, hw⟩
  · simp only [expectTwo, hlength]
    exact .raise _

theorem agrees_expectAtLeast (n : Nat) (hargs : C.Vals M args args') :
    C.Agrees M Same (expectAtLeast args n) (expectAtLeast args' n) := by
  simp only [expectAtLeast, hargs.length_eq]
  split
  · exact .pure fun _ _ => rfl
  · exact .raise _

theorem agrees_expectList {v v' : Value} (hv : C.Val M v v') :
    C.Agrees M (fun _ => C.Vals M) (expectList v) (expectList v') := by
  have hvalue := hv
  cases hv with
  | list hitems => exact .pure fun _ _ => hitems
  | _ => exact agrees_typeError _ hvalue

theorem agrees_expectNumber {v v' : Value} (hv : C.Val M v v') :
    C.Agrees M Same (expectNumber v) (expectNumber v') := by
  have hvalue := hv
  cases hv with
  | number x => exact .pure fun _ _ => rfl
  | _ => exact agrees_typeError _ hvalue

theorem agrees_numbers (hargs : C.Vals M args args') :
    C.Agrees M Same (args.mapM expectNumber) (args'.mapM expectNumber) := by
  refine (Agrees.mapM (T := Same) (fun _ h => h) hargs fun N v v' hMN hv =>
    agrees_expectNumber (hv.mono hMN)).weaken ?_
  intro N xs ys _ h
  simpa only [Same, List.forall₂_eq_eq_eq] using h

theorem agrees_onList {k : List Value → Run Value} (hargs : C.Vals M args args')
    (hk : ∀ {N xs ys}, C.Vals N xs ys → C.Agrees N C.Val (k xs) (k ys)) :
    C.Agrees M C.Val (do k (← expectList (← expectOne args)))
      (do k (← expectList (← expectOne args'))) := by
  refine (agrees_expectOne hargs).bind fun N v v' hMN hv => ?_
  refine ((agrees_expectList hv).mono hMN).bind fun O xs ys hNO hxs => ?_
  exact hk (Value.AllAgree.mono (hMN.trans hNO) hxs)

theorem agrees_runAdd (hargs : C.Vals M args args') :
    C.Agrees M C.Val (runAdd args) (runAdd args') := by
  refine (agrees_numbers hargs).bind fun N xs ys _ hxs => ?_
  cases hxs
  exact .pure fun _ _ => .number _

theorem agrees_runSub (hargs : C.Vals M args args') :
    C.Agrees M C.Val (runSub args) (runSub args') := by
  refine (agrees_numbers hargs).bind fun N xs ys _ hxs => ?_
  cases hxs
  cases xs with
  | nil => exact .raise _
  | cons x xs => exact .pure fun _ _ => .number _

theorem agrees_runEqual (hargs : C.Vals M args args') :
    C.Agrees M C.Val (runEqual args) (runEqual args') := by
  refine .get_bind fun i N s t hMN hst => ?_
  cases hargs with
  | nil => exact .raise _
  | @cons v v' others others' hv hothers =>
      have hall : others.all (s.same v) = others'.all (t.same v') := by
        induction hothers with
        | nil => rfl
        | cons hw _ ih =>
            have hsame := (hv.mono hMN).matches.same_eq (C.dish_eq hst) (C.identity_iff hst) (hw.mono hMN).matches
            simp only [List.all_cons, Store.same, hsame]
            exact congrArg _ ih
      simp only [hall]
      exact .pure fun _ _ => .boolean _

theorem agrees_runApply {call call' : Call} (hcall : C.CallAgrees call call')
    (hargs : C.Vals M args args') :
    C.Agrees M C.Val (runApply call args) (runApply call' args') := by
  refine (agrees_expectTwo hargs).bind fun N ⟨f, xs⟩ ⟨f', xs'⟩ hMN ⟨hf, hxs⟩ => ?_
  simp only [hf.matches.isFunction_eq]
  split
  · exact .raise _
  · cases hxs with
    | list hitems => exact hcall (hf.mono hMN) (Value.AllAgree.mono hMN hitems)
    | _ => exact .raise _

theorem agrees_runFirst (hargs : C.Vals M args args') :
    C.Agrees M C.Val (runFirst args) (runFirst args') := by
  refine agrees_onList hargs fun hxs => ?_
  cases hxs with
  | nil => exact .pure fun _ _ => .nil
  | cons hx _ => exact .pure fun _ hNO => hx.mono hNO

theorem agrees_runRest (hargs : C.Vals M args args') :
    C.Agrees M C.Val (runRest args) (runRest args') := by
  refine agrees_onList hargs fun hxs => ?_
  cases hxs with
  | nil => exact .pure fun _ _ => .list .nil
  | cons _ hrest => exact .pure fun _ hNO => .list (Value.AllAgree.mono hNO hrest)

theorem agrees_runButlast (hargs : C.Vals M args args') :
    C.Agrees M C.Val (runButlast args) (runButlast args') := by
  refine agrees_onList hargs fun {N xs ys} hxs => ?_
  have hdrop : C.Vals N xs.dropLast ys.dropLast := by
    rw [List.dropLast_eq_take, List.dropLast_eq_take, hxs.length_eq]
    exact List.forall₂_take _ hxs
  exact .pure fun _ hNO => .list (Value.AllAgree.mono hNO hdrop)

theorem agrees_runLast (hargs : C.Vals M args args') :
    C.Agrees M C.Val (runLast args) (runLast args') := by
  refine agrees_onList hargs fun {N xs ys} hxs => ?_
  have hreverse := List.rel_reverse hxs
  simp only [List.getLast?_eq_head?_reverse]
  revert hreverse
  generalize xs.reverse = reversed, ys.reverse = reversed'
  rintro (_ | ⟨hx, _⟩)
  · exact .raise _
  · exact .pure fun _ hNO => hx.mono hNO

theorem agrees_runCons (hargs : C.Vals M args args') :
    C.Agrees M C.Val (runCons args) (runCons args') := by
  refine (agrees_expectTwo hargs).bind fun N ⟨v, w⟩ ⟨v', w'⟩ hMN ⟨hv, hw⟩ => ?_
  cases hw with
  | list hitems =>
      exact .pure fun O hNO => .list (.cons (hv.mono (hMN.trans hNO))
        (Value.AllAgree.mono (hMN.trans hNO) hitems))
  | _ => exact .raise _

theorem agrees_runIsEmpty (hargs : C.Vals M args args') :
    C.Agrees M C.Val (runIsEmpty args) (runIsEmpty args') := by
  refine .get_bind fun i N s t hMN hst => ?_
  refine ((agrees_expectOne hargs).mono hMN).bind fun O v v' hNO hv => ?_
  cases hv with
  | list hitems =>
      cases hitems with
      | nil => exact .pure fun _ _ => .boolean true
      | cons _ _ => exact .pure fun _ _ => .boolean false
  | text s => exact .pure fun _ _ => .boolean s.isEmpty
  | dish hk =>
      simp only [C.dish_eq hst (hMN.handle hk)]
      exact .pure fun _ _ => .boolean _
  | _ => exact .pure fun _ _ => .nil

theorem agrees_runDish (hargs : C.Vals M args args') :
    C.Agrees M C.Val (runDish args) (runDish args') := by
  refine (agrees_expectOne hargs).bind fun N v v' _ hv => ?_
  cases hv with
  | text s => exact agrees_newDish _
  | _ => exact .raise _

theorem agrees_runRecipe (hargs : C.Vals M args args') :
    C.Agrees M C.Val (runRecipe args) (runRecipe args') := by
  refine (agrees_expectAtLeast 1 hargs).bind fun N _ _ hMN _ => ?_
  have hfind : Option.Rel (C.Val M) (args.find? (!·.isFunction)) (args'.find? (!·.isFunction)) := by
    induction hargs with
    | nil => exact .none
    | cons hv _ ih =>
        simp only [List.find?_cons, hv.matches.isFunction_eq]
        split
        · exact .some hv
        · exact ih
  revert hfind
  generalize args.find? (!·.isFunction) = found, args'.find? (!·.isFunction) = found'
  rintro (hv | _)
  · exact agrees_typeError _ (hv.mono hMN)
  · exact .pure fun O hNO => .list (Value.AllAgree.mono (hMN.trans hNO) hargs)

theorem agrees_runBake {call call' : Call} (hcall : C.CallAgrees call call')
    (hargs : C.Vals M args args') :
    C.Agrees M C.Val (runBake call args) (runBake call' args') := by
  refine (agrees_expectTwo hargs).bind fun N ⟨v, w⟩ ⟨v', w'⟩ hMN ⟨hv, hw⟩ => ?_
  cases hv with
  | list hsteps =>
      cases hw with
      | dish hk =>
          simp only [Value.AllAgree.all_isFunction_eq hsteps]
          split
          · refine (Agrees.forM hsteps fun O f f' hNO hf => ?_).bind fun O _ _ hNO _ =>
              .pure fun P hOP => .dish ((hMN.trans (hNO.trans hOP)).handle hk)
            have hdish : C.Val O (.dish _) (.dish _) := .dish ((hMN.trans hNO).handle hk)
            exact (hcall (hf.mono (hMN.trans hNO)) (.cons hdish .nil)).bind fun _ _ _ _ _ =>
              .pure fun _ _ => rfl
          · exact .raise _
      | _ => exact .raise _
  | _ => exact .raise _

theorem agrees_runPrint (hargs : C.Vals M args args') :
    C.Agrees M C.Val (runPrint args) (runPrint args') := by
  refine .get_bind fun i N s t hMN hst => ?_
  cases hargs with
  | nil => exact .raise _
  | cons hv _ =>
      have hdisplay := store_display_eq hst (hv.mono hMN)
      cases hv with
      | dish hk =>
          simp only [C.dish_eq hst (hMN.handle hk)]
          exact (agrees_write _).bind fun _ _ _ _ _ => .pure fun _ _ => .nil
      | _ =>
          simp only [hdisplay]
          exact (agrees_write _).bind fun _ _ _ _ _ => .pure fun _ _ => .nil

theorem agrees_builtin (b : Builtin) {call call' : Call} (hcall : C.CallAgrees call call')
    (hargs : C.Vals M args args') :
    C.Agrees M C.Val (b.run call args) (b.run call' args') := by
  cases b with
  | add => exact agrees_runAdd hargs
  | sub => exact agrees_runSub hargs
  | equal => exact agrees_runEqual hargs
  | apply => exact agrees_runApply hcall hargs
  | first => exact agrees_runFirst hargs
  | rest => exact agrees_runRest hargs
  | butlast => exact agrees_runButlast hargs
  | last => exact agrees_runLast hargs
  | isEmpty => exact agrees_runIsEmpty hargs
  | cons => exact agrees_runCons hargs
  | dish => exact agrees_runDish hargs
  | recipe => exact agrees_runRecipe hargs
  | bake => exact agrees_runBake hcall hargs
  | print => exact agrees_runPrint hargs

end Bakehouse.Comparison
