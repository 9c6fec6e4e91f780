import Bakehouse.Proofs.Cells
import Bakehouse.Proofs.Reachable

namespace Bakehouse

/-- The borrowed dishes are the given ones. -/
def borrowedAre : Invariant where
  Stage := Handle → Bool
  allowed _ := True
  writable _ := True
  holds b s := s.isBorrowed = b
  configured _ _ := trivial
  writable_base _ _ := trivial
  congr hs _ hcells := by
    rw [← hs]
    funext h
    simp only [Store.isBorrowed, hcells]
  push _ hs := ⟨trivial, hs⟩
  define _ _ hs _ := hs
  newDish {_ s} p hs := by
    rw [← hs]
    exact funext (s.isBorrowed_newDish p)
  payload {_ s h _} q hs _ := by
    rw [← hs]
    exact funext fun k => s.isBorrowed_setDish h k (.good q)
  borrow {b s h _} hs _ hfree := by
    refine ⟨_, rfl, fun {t} ht => ?_⟩
    -- Only `h` differs from before while an operation works on it, and it was free.
    have hrelease : (t.setBorrowed h false).isBorrowed = b := by
      funext k
      by_cases hk : h = k
      · subst hk
        rw [t.isBorrowed_setBorrowed_false, ← hs, hfree]
      · rw [t.isBorrowed_setBorrowed_of_ne hk, ht, s.isBorrowed_setBorrowed_of_ne hk, hs]
    refine ⟨hrelease, fun _ _ => ?_⟩
    rw [← hrelease]
    funext k
    by_cases hk : h = k
    · subst hk
      rw [Store.isBorrowed_setBorrowed_false, Store.isBorrowed_setBorrowed_false]
    · rw [Store.isBorrowed_setBorrowed_of_ne _ hk, Store.isBorrowed_setBorrowed_of_ne _ hk,
        Store.isBorrowed_setDish]

/-- Only good dishes are borrowed. -/
def borrowedGood : Invariant where
  Stage := Unit
  allowed _ := True
  writable _ := True
  holds _ s := ∀ h, s.isBorrowed h = true → (s.dish h).isGood = true
  configured _ _ := trivial
  writable_base _ _ := trivial
  congr hs _ hcells := by
    simp only [Store.isBorrowed, Store.dish, hcells] at hs ⊢
    exact hs
  push _ hs := ⟨trivial, hs⟩
  define _ _ hs _ := hs
  newDish p hs h hborrowed := by
    rw [Store.isBorrowed_newDish] at hborrowed
    exact Store.isGood_newDish p (hs h hborrowed)
  payload q hs _ k hborrowed := by
    rw [Store.isBorrowed_setDish] at hborrowed
    exact Store.isGood_setDish_good _ q (hs k hborrowed)
  borrow {_ s h p} hs hgood _ := by
    refine ⟨(), fun k hborrowed => ?_,
      fun {t} ht => ⟨fun k hborrowed => ?_, fun _ _ k hborrowed => ?_⟩⟩
    · rw [Store.dish_setBorrowed]
      by_cases hk : h = k
      · subst hk
        rw [hgood]
        rfl
      · rw [Store.isBorrowed_setBorrowed_of_ne _ hk] at hborrowed
        exact hs k hborrowed
    -- A dish that is still borrowed after `h` has been given back is another one.
    · obtain ⟨_, hstill⟩ := Store.isBorrowed_of_setBorrowed_false hborrowed
      rw [Store.dish_setBorrowed]
      exact ht k hstill
    · obtain ⟨hk, hstill⟩ := Store.isBorrowed_of_setBorrowed_false hborrowed
      rw [Store.isBorrowed_setDish] at hstill
      rw [Store.dish_setBorrowed, Store.dish_setDish_of_ne _ hk]
      exact ht k hstill

theorem borrowedAre_stands (s : Store) : borrowedAre.Stands s.isBorrowed s :=
  ⟨rfl, fun _ _ => trivial⟩

theorem AtRest.isBorrowed_eq {s : Store} (hs : AtRest s) (h : Handle) : s.isBorrowed h = false := by
  have hstands := Invariant.stands_atRest (I := borrowedAre) (i := fun _ => false)
    (fun _ => trivial) (fun _ => trivial) (funext fun _ => rfl) hs
  rw [hstands.holds]

theorem Reachable.isGood_of_isBorrowed {s : Store} (hs : Reachable s) {h : Handle}
    (hborrowed : s.isBorrowed h = true) : (s.dish h).isGood = true := by
  obtain ⟨_, hstands⟩ := Invariant.stands_reachable (I := borrowedGood) (i := ())
    (fun _ => trivial) (fun _ => trivial) (fun _ hempty => by cases hempty) hs
  exact hstands.holds h hborrowed

theorem Operation.applyTo_of_isBorrowed {s : Store} {h : Handle} (hgood : (s.dish h).isGood = true)
    (hborrowed : s.isBorrowed h = true) (op : Operation) (runText : RunText) (bag : Arguments) :
    op.applyTo runText bag h s = (.error (.error .borrowed), s) := by
  cases hdish : s.dish h with
  | good p => exact Comparison.applyTo_borrowed op runText bag hdish hborrowed
  | failed f =>
      rw [hdish] at hgood
      cases hgood

theorem breakingAt_error {α : Type} {m : Run α} {stop s : Store} {halt : Halt}
    (h : (m s).1 = .error halt) : (breakingAt stop halt m s).1 = .error halt := by
  unfold breakingAt
  split
  · rfl
  · generalize m s = o at h ⊢
    obtain ⟨r, t⟩ := o
    simp only
    split
    · rfl
    · exact h

theorem applyStep_operation {op : Operation} (harity : op.arity = 0) (eval : Eval) (call : Call)
    (runText : RunText) (id : Nat) (h : Handle) :
    applyStep eval call runText (.native id (.operation op)) [.dish h] =
      op.applyTo runText .empty h := by
  simp only [applyStep, Native.run, if_pos harity]
  rfl

/-- When an operation has code run, the dish that it works on is borrowed. -/
theorem visits_borrowed {s : Store} {h : Handle} {p : Payload} (hgood : s.dish h = .good p)
    (hfree : s.isBorrowed h = false) (op : Operation) (harity : op.arity = 0) {code : String}
    {rest : List Action} (hop : op.procedure = .custom (.eval code :: rest)) (fuel id : Nat)
    (caller : FrameId) :
    ApplicationVisits (fuel + 1) (.native id (.operation op)) [.dish h] caller s
      (s.setBorrowed h true) := by
  have hbroken (halt : Halt) : (applyBreaking (s.setBorrowed h true) halt (fuel + 1)
      (.native id (.operation op)) [.dish h] caller s).1 = .error halt := by
    have hstart {α : Type} (m : Run α) :
        breakingAt (s.setBorrowed h true) halt m (s.setBorrowed h true) =
          (.error halt, s.setBorrowed h true) := if_pos rfl
    rw [applyBreaking]
    refine breakingAt_error ?_
    rw [applyStep_operation harity, Comparison.applyTo_free _ _ _ hgood hfree]
    simp only [Operation.borrowing, Operation.runProcedure, hop, Operation.runActions,
      Operation.runAction, Operation.unlessFault, Run.bind_apply, hstart]
  -- One of two ways of breaking off differs from how the application really ends.
  by_cases hfuel : (apply (fuel + 1) (.native id (.operation op)) [.dish h] caller s).1 =
      .error .outOfFuel
  · refine ⟨.error .borrowed, fun heq => ?_⟩
    rw [← heq, hbroken] at hfuel
    cases hfuel
  · exact ⟨.outOfFuel, fun heq => hfuel (heq ▸ hbroken .outOfFuel)⟩

/-- Calls end with the dishes borrowed that were borrowed before, so between calls from outside none
is. At every point of a call the borrowed dishes are good ones, and a dish that is borrowed turns an
operation away with an error and without any change. -/
theorem borrowing_is_sound :
    (∀ (s : Store) (fuel : Nat),
      (∀ e frame, (evaluate fuel e frame s).2.isBorrowed = s.isBorrowed) ∧
      (∀ f args caller, (apply fuel f args caller s).2.isBorrowed = s.isBorrowed) ∧
      (∀ code, (evalText fuel code s).2.isBorrowed = s.isBorrowed) ∧
      ∀ code, (evalOne fuel code s).2.isBorrowed = s.isBorrowed) ∧
    (∀ s : Store, AtRest s → ∀ h, s.isBorrowed h = false) ∧
    (∀ s : Store, Reachable s → ∀ h, s.isBorrowed h = true → (s.dish h).isGood = true ∧
      (∀ (op : Operation) runText bag,
        op.applyTo runText bag h s = (.error (.error .borrowed), s)) ∧
      (∀ (op : Operation) fuel id bag caller,
        apply (fuel + 1) (.native id (.configured op bag)) [.dish h] caller s =
          (.error (.error .borrowed), s)) ∧
      ∀ (op : Operation) fuel id caller, op.arity = 0 →
        apply (fuel + 1) (.native id (.operation op)) [.dish h] caller s =
          (.error (.error .borrowed), s)) ∧
    Error.borrowed.message = "dish already borrowed" ∧ Error.borrowed.isRecoverable = true := by
  refine ⟨?_, fun s hs h => hs.isBorrowed_eq h, ?_, rfl, rfl⟩
  · intro s fuel
    have hstands := borrowedAre_stands s
    refine ⟨?_, ?_, ?_, ?_⟩
    · intro e frame
      exact (hstands.evaluate fuel (fun _ _ => trivial) trivial).holds
    · intro f args caller
      exact (hstands.apply fuel (fun _ _ => trivial) (fun _ _ => trivial) caller).holds
    · intro code
      exact (hstands.evalText fuel code trivial).holds
    · intro code
      exact (hstands.evalOne fuel code trivial).holds
  · intro s hs h hborrowed
    have hgood := hs.isGood_of_isBorrowed hborrowed
    have hrefused := Operation.applyTo_of_isBorrowed hgood hborrowed
    refine ⟨hgood, hrefused, ?_, ?_⟩
    · intro op fuel id bag caller
      rw [apply_succ]
      exact hrefused op _ bag
    · intro op fuel id caller harity
      rw [apply_succ, applyStep_operation harity]
      exact hrefused op _ .empty

/-- An operation whose code gives the same dish to it again. -/
theorem borrowing_is_sound_nested :
    let s := (Form.load (.dish (.text "dough")) (Store.initial [])).2
    let h := (Store.initial []).cells.size
    let op : Operation := ⟨"again", [], .custom [.eval "(again d)", .put (.text "")]⟩
    let t := s.setBorrowed h true
    AtRest s ∧ s.isBorrowed h = false ∧ Reachable t ∧ t.isBorrowed h = true ∧
      apply 3 (.native 7 (.operation op)) [.dish h] baseFrame t = (.error (.error .borrowed), t) ∧
      (apply 3 (.native 7 (.operation op)) [.dish h] baseFrame s).2.isBorrowed = s.isBorrowed := by
  intro s h op t
  obtain ⟨hkeep, hrest, hreach, _⟩ := borrowing_is_sound
  have hs : AtRest s := (AtRest.initial []).load _
  have hgood : s.dish h = .good (.text "dough") := (Store.initial []).dish_newDish_size _
  have ht : Reachable t :=
    .applying hs (visits_borrowed hgood (hrest s hs h) op rfl rfl 2 7 baseFrame)
  have hlt : h < ((Store.initial []).newDish (.text "dough")).1.cells.size := by
    simp [h, Store.newDish]
  have hborrowed : t.isBorrowed h = true := Store.isBorrowed_setBorrowed_true hlt
  obtain ⟨_, _, _, hrefused⟩ := hreach t ht h hborrowed
  exact ⟨hs, hrest s hs h, ht, hborrowed, hrefused op 2 7 baseFrame rfl, (hkeep s 3).2.1 _ _ _⟩

/-- An operation that is turned away by the dish it works on can go on from there. -/
example :
    let retreat : Action :=
      .attempt (.both (.eval "(again d)") (.put (.text "twice"))) (.put (.text "once"))
    let s := (register [⟨"again", [], .custom [retreat]⟩] (Store.initial [])).2
    (evalText 9 "(def d (dish \"dough\")) (print (again d))" s).2.output = "once\n" := by
  decide +kernel

end Bakehouse
