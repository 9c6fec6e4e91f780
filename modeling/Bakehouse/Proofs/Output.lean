import Bakehouse.Proofs.Comparison.Evaluator

namespace Bakehouse

namespace Store

/-- The stores that differ in what had been written before: `before` in one and `before'` in the
other. -/
def outputs (before before' : String) : Comparison where
  Stage := Unit
  lenient := False
  allowed _ := True
  writable _ := True
  known _ := True
  store _ M s t :=
    M = .same ∧ ∃ text, s.output = before ++ text ∧ t = { s with output := before' ++ text }
  configured _ _ := trivial
  writable_base _ _ := trivial
  known_all _ _ _ := trivial
  frame_base := by
    rintro _ M s t ⟨rfl, _⟩
    rfl
  dish_eq := by
    rintro _ M s t h k ⟨rfl, text, _, rfl⟩ rfl
    rfl
  borrowed_eq := by
    rintro _ M s t h k ⟨rfl, text, _, rfl⟩ rfl
    rfl
  identity_iff := by
    rintro _ M s t a a' b b' ⟨rfl, _⟩ rfl rfl
    rfl
  store_lookup := by
    rintro _ M s t e e' x ⟨rfl, text, _, rfl⟩ rfl _
    cases s.scopes.lookup? e x with
    | none => exact .none
    | some v =>
        have hself : v.Matches .same (fun _ => True) v :=
          v.matches_self (fun _ => rfl) (fun _ => rfl) (fun _ _ => rfl) fun _ _ => trivial
        exact .some (hself.agrees fun _ => trivial)
  store_newIdentity := by
    rintro _ M s t ⟨rfl, text, hs, rfl⟩
    exact ⟨.same, le_rfl, rfl, rfl, text, hs, rfl⟩
  store_write := by
    rintro _ M s t more ⟨rfl, text, hs, rfl⟩
    refine ⟨rfl, text ++ more, ?_, ?_⟩
    · simp only [hs, String.append_assoc]
    · simp only [String.append_assoc]
  store_newDish := by
    rintro _ M s t p ⟨rfl, text, hs, rfl⟩
    exact ⟨.same, le_rfl, rfl, rfl, text, hs, rfl⟩
  store_push := by
    rintro _ M s t e e' ⟨rfl, text, hs, rfl⟩ rfl
    exact ⟨.same, le_rfl, rfl, trivial, rfl, text, hs, rfl⟩
  store_define := by
    rintro _ M s t e e' x v v' ⟨rfl, text, hs, rfl⟩ rfl _ hv
    cases hv.matches.eq_of_same
    exact ⟨rfl, text, hs, rfl⟩
  store_payload := by
    rintro _ M s t h k p q ⟨rfl, text, hs, rfl⟩ rfl _
    exact ⟨rfl, text, hs, rfl⟩
  store_borrow := by
    rintro _ M s t h k p ⟨rfl, text, hs, rfl⟩ rfl _ _
    refine ⟨(), ⟨rfl, text, hs, rfl⟩, ?_⟩
    rintro N s' t' _ ⟨rfl, text', hs', rfl⟩
    exact ⟨⟨rfl, text', hs', rfl⟩, fun _ _ => ⟨rfl, text', hs', rfl⟩⟩

end Store

theorem exists_output {fuel : Nat} {code : String} {s t : Store} {r : Except Halt Value}
    (h : evalOne fuel code s = (r, t)) (before : String) :
    ∃ printed, t.output = s.output ++ printed ∧
      evalOne fuel code { s with output := before } =
        (r, { t with output := before ++ printed }) := by
  have hst : (Store.outputs s.output before).store () .same s { s with output := before } :=
    ⟨rfl, "", String.append_empty.symm, by rw [String.append_empty]⟩
  have hagrees : (Store.outputs s.output before).Agrees .same _ _ _ :=
    Comparison.agrees_evalOne fuel code (fun _ _ _ _ => trivial) rfl trivial
  obtain ⟨N, _, ⟨rfl, printed, hprinted, hstore⟩, hresult⟩ :=
    (hagrees () .same s _ le_rfl hst).matched not_false
  rw [h] at hprinted hstore hresult
  refine ⟨printed, hprinted, Prod.ext ?_ hstore⟩
  revert hresult
  generalize (evalOne fuel code { s with output := before }).1 = r'
  rintro (hv | e)
  · rw [hv.matches.eq_of_same]
  · rfl

/-- What an evaluation prints does not depend on what was printed before it, nor does its outcome. -/
theorem evalOne_output {fuel : Nat} {code : String} {s t : Store} {r : Except Halt Value}
    (h : evalOne fuel code s = (r, t)) {printed : String}
    (hprinted : t.output = s.output ++ printed) (before : String) :
    evalOne fuel code { s with output := before } =
      (r, { t with output := before ++ printed }) := by
  obtain ⟨printed', hprinted', hbefore⟩ := exists_output h before
  have hsame : printed' = printed :=
    String.append_right_inj s.output |>.mp (hprinted'.symm.trans hprinted)
  rw [hbefore, hsame]

end Bakehouse
