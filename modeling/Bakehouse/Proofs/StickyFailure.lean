import Bakehouse.Proofs.Cells
import Bakehouse.Proofs.Invariant

namespace Bakehouse

/-- The message of the fault that spoilt a dish, if one did. -/
def Store.failure? (s : Store) (h : Handle) : Option String :=
  match s.dish h with
  | .good _ => none
  | .failed f => some f.message

/-- One dish stays failed with one fault. -/
def failedWith (h : Handle) (f : Fault) : Invariant where
  Stage := Unit
  allowed _ := True
  writable _ := True
  holds _ s := s.dish h = .failed f
  configured _ _ := trivial
  writable_base _ _ := trivial
  congr hs _ hcells := by
    simp only [Store.dish, hcells] at hs ⊢
    exact hs
  push _ hs := ⟨trivial, hs⟩
  define _ _ hs _ := hs
  newDish p hs := Store.dish_newDish_of_failed p hs
  payload {_ s k p} q hs hgood := by
    have hne : k ≠ h := by
      rintro rfl
      rw [hs] at hgood
      cases hgood
    rw [Store.dish_setDish_of_ne s hne]
    exact hs
  borrow {_ s k p} hs hgood _ := by
    -- An operation that gets to work on a dish has found it good, so it works on another one.
    have hne : k ≠ h := by
      rintro rfl
      rw [hs] at hgood
      cases hgood
    refine ⟨(), by rwa [Store.dish_setBorrowed], fun ht => ⟨by rwa [Store.dish_setBorrowed], ?_⟩⟩
    intro _ fault _ _
    rw [Store.dish_setBorrowed, Store.dish_setDish_of_ne _ hne]
    exact ht

theorem failure?_eq_some {s : Store} {h : Handle} {message : String} :
    s.failure? h = some message ↔ ∃ f, s.dish h = .failed f ∧ f.message = message := by
  unfold Store.failure?
  cases s.dish h with
  | good p => simp
  | failed f => simp

theorem failedWith_stands {s : Store} {h : Handle} {f : Fault} (hfailed : s.dish h = .failed f) :
    (failedWith h f).Stands () s :=
  ⟨hfailed, fun _ _ => trivial⟩

/-- A dish that has failed before a form is evaluated, a function applied or a program run has
failed with the same message afterwards, whatever came of it. -/
theorem failure_is_final {s : Store} {h : Handle} {message : String}
    (hfailure : s.failure? h = some message) (fuel : Nat) :
    (∀ e frame, (evaluate fuel e frame s).2.failure? h = some message) ∧
    (∀ f args caller, (apply fuel f args caller s).2.failure? h = some message) ∧
    (∀ forms error frame,
      (runForms (fun v => evaluate fuel v frame) none forms error s).2.failure? h = some message) ∧
    (∀ code, (evalText fuel code s).2.failure? h = some message) ∧
    ∀ code, (evalOne fuel code s).2.failure? h = some message := by
  obtain ⟨f, hfailed, hmessage⟩ := failure?_eq_some.mp hfailure
  have hs := failedWith_stands hfailed
  have hfinal : ∀ {t : Store}, (failedWith h f).Stands () t → t.failure? h = some message :=
    fun ht => failure?_eq_some.mpr ⟨f, ht.holds, hmessage⟩
  refine ⟨?_, ?_, ?_, ?_, ?_⟩
  · intro e frame
    exact hfinal (hs.evaluate fuel (fun _ _ => trivial) trivial)
  · intro g args caller
    exact hfinal (hs.apply fuel (fun _ _ => trivial) (fun _ _ => trivial) caller)
  · intro forms error frame
    exact hfinal (hs.runForms fuel forms error trivial)
  · intro code
    exact hfinal (hs.evalText fuel code trivial)
  · intro code
    exact hfinal (hs.evalOne fuel code trivial)

/-- A failed dish and an operation that would replace its payload and fail it anew. -/
theorem failure_is_final_custom :
    let s : Store := { Store.initial [] with cells := #[⟨.failed (.custom "burnt"), false⟩] }
    let op : Operation := ⟨"again", [], .custom [.put (.text ""), .eval "(again d)", .fail "raw"]⟩
    s.failure? 0 = some "burnt" ∧
      (apply 9 (.native 0 (.operation op)) [.dish 0] baseFrame s).2.failure? 0 = some "burnt" := by
  intro s op
  have hfailure : s.failure? 0 = some "burnt" := rfl
  exact ⟨hfailure, (failure_is_final hfailure 9).2.1 _ _ _⟩

end Bakehouse
