import Bakehouse.Language.Store

namespace Bakehouse.Store

theorem dish_setBorrowed (s : Store) (h k : Handle) (b : Bool) :
    (s.setBorrowed h b).dish k = s.dish k := by
  simp only [dish, setBorrowed, Array.getElem?_modify]
  by_cases hk : h = k
  · rw [if_pos hk]
    cases s.cells[k]? <;> rfl
  · rw [if_neg hk]

theorem dish_setDish_of_ne (s : Store) {h k : Handle} (hne : h ≠ k) (d : Dish) :
    (s.setDish h d).dish k = s.dish k := by
  simp only [dish, setDish, Array.getElem?_modify, if_neg hne]

theorem dish_setDish {s : Store} {h : Handle} (hlt : h < s.cells.size) (d : Dish) :
    (s.setDish h d).dish h = d := by
  simp only [dish, setDish, Array.getElem?_modify, if_true, Array.getElem?_eq_getElem hlt]
  rfl

theorem setDish_dish (s : Store) (h : Handle) : s.setDish h (s.dish h) = s := by
  have hcells : s.cells.modify h (fun cell => { cell with dish := s.dish h }) = s.cells := by
    refine Array.ext_getElem? fun k => ?_
    rw [Array.getElem?_modify]
    split
    · rename_i hk
      subst hk
      simp only [dish]
      cases s.cells[h]? <;> rfl
    · rfl
  simp only [setDish, hcells]

theorem setDish_setDish (s : Store) (h : Handle) (d e : Dish) :
    (s.setDish h d).setDish h e = s.setDish h e := by
  have hcells : (s.setDish h d).cells.modify h (fun cell => { cell with dish := e }) =
      s.cells.modify h fun cell => { cell with dish := e } := by
    refine Array.ext_getElem? fun k => ?_
    simp only [setDish, Array.getElem?_modify]
    split
    · cases s.cells[k]? <;> rfl
    · rfl
  simp only [setDish] at hcells ⊢
  rw [hcells]

theorem dish_newDish_of_failed {s : Store} {h : Handle} {f : Fault} (p : Payload)
    (hfailed : s.dish h = .failed f) : (s.newDish p).1.dish h = .failed f := by
  simp only [dish, newDish] at hfailed ⊢
  cases hcell : s.cells[h]? with
  | none => simp [hcell] at hfailed
  | some cell =>
      obtain ⟨hlt, _⟩ := Array.getElem?_eq_some_iff.mp hcell
      rw [Array.getElem?_push_lt hlt, ← Array.getElem?_eq_getElem hlt]
      exact hfailed

theorem failed_of_newDish {s : Store} {h : Handle} {f : Fault} {p : Payload}
    (hfailed : (s.newDish p).1.dish h = .failed f) : s.dish h = .failed f := by
  simp only [dish, newDish, Array.getElem?_push] at hfailed ⊢
  by_cases hnew : h = s.cells.size
  · rw [if_pos hnew] at hfailed
    cases hfailed
  · rwa [if_neg hnew] at hfailed

/-- A dish that has failed after a change has failed before or is the one that was changed. -/
theorem failed_of_setDish {s : Store} {h k : Handle} {d : Dish} {f : Fault}
    (hfailed : (s.setDish h d).dish k = .failed f) : s.dish k = .failed f ∨ d = .failed f := by
  by_cases hk : h = k
  · subst hk
    rw [dish, setDish, Array.getElem?_modify, if_pos rfl] at hfailed
    cases hcell : s.cells[h]? with
    | none =>
        rw [hcell] at hfailed
        cases hfailed
    | some cell =>
        rw [hcell] at hfailed
        exact .inr hfailed
  · rw [dish_setDish_of_ne s hk] at hfailed
    exact .inl hfailed

theorem dish_newDish_size (s : Store) (p : Payload) :
    (s.newDish p).1.dish s.cells.size = .good p := by
  simp only [dish, newDish, Array.getElem?_push_size]

theorem isGood_setDish_good {s : Store} {k : Handle} (h : Handle) (p : Payload)
    (hgood : (s.dish k).isGood = true) : ((s.setDish h (.good p)).dish k).isGood = true := by
  by_cases hk : h = k
  · subst hk
    simp only [dish, setDish, Array.getElem?_modify, if_true]
    cases s.cells[h]? <;> rfl
  · rwa [dish_setDish_of_ne s hk]

theorem isGood_newDish {s : Store} {h : Handle} (p : Payload) (hgood : (s.dish h).isGood = true) :
    ((s.newDish p).1.dish h).isGood = true := by
  simp only [dish, newDish, Array.getElem?_push] at hgood ⊢
  by_cases hnew : h = s.cells.size
  · rw [if_pos hnew]
    rfl
  · rwa [if_neg hnew]

theorem isBorrowed_setDish (s : Store) (h k : Handle) (d : Dish) :
    (s.setDish h d).isBorrowed k = s.isBorrowed k := by
  simp only [isBorrowed, setDish, Array.getElem?_modify]
  by_cases hk : h = k
  · rw [if_pos hk]
    cases s.cells[k]? <;> rfl
  · rw [if_neg hk]

theorem isBorrowed_setBorrowed_of_ne (s : Store) {h k : Handle} (hne : h ≠ k) (b : Bool) :
    (s.setBorrowed h b).isBorrowed k = s.isBorrowed k := by
  simp only [isBorrowed, setBorrowed, Array.getElem?_modify, if_neg hne]

theorem isBorrowed_setBorrowed_false (s : Store) (h : Handle) :
    (s.setBorrowed h false).isBorrowed h = false := by
  simp only [isBorrowed, setBorrowed, Array.getElem?_modify, if_true]
  cases s.cells[h]? <;> rfl

theorem isBorrowed_of_setBorrowed_false {s : Store} {h k : Handle}
    (hborrowed : (s.setBorrowed h false).isBorrowed k = true) : h ≠ k ∧ s.isBorrowed k = true := by
  have hk : h ≠ k := by
    rintro rfl
    rw [isBorrowed_setBorrowed_false] at hborrowed
    cases hborrowed
  rw [isBorrowed_setBorrowed_of_ne s hk] at hborrowed
  exact ⟨hk, hborrowed⟩

theorem isBorrowed_setBorrowed_true {s : Store} {h : Handle} (hlt : h < s.cells.size) :
    (s.setBorrowed h true).isBorrowed h = true := by
  simp only [isBorrowed, setBorrowed, Array.getElem?_modify, if_true, Array.getElem?_eq_getElem hlt]
  rfl

/-- A dish that is borrowed, changed and given back has been changed. -/
theorem setBorrowed_setDish_setBorrowed {s : Store} {h : Handle} (hfree : s.isBorrowed h = false)
    (d : Dish) : ((s.setBorrowed h true).setDish h d).setBorrowed h false = s.setDish h d := by
  have hcells : ((s.setBorrowed h true).setDish h d).cells.modify h
      (fun cell => { cell with borrowed := false }) = (s.setDish h d).cells := by
    refine Array.ext_getElem? fun k => ?_
    simp only [setDish, setBorrowed, Array.getElem?_modify]
    split
    · rename_i hk
      subst hk
      rw [isBorrowed] at hfree
      revert hfree
      rcases s.cells[h]? with _ | ⟨dish, borrowed⟩
      · intro _
        rfl
      · rintro rfl
        rfl
    · rfl
  simp only [setDish, setBorrowed] at hcells ⊢
  rw [hcells]

theorem isBorrowed_newDish (s : Store) (p : Payload) (h : Handle) :
    (s.newDish p).1.isBorrowed h = s.isBorrowed h := by
  simp only [isBorrowed, newDish, Array.getElem?_push]
  by_cases hnew : h = s.cells.size
  · subst hnew
    simp
  · rw [if_neg hnew]

theorem size_setDish (s : Store) (h : Handle) (d : Dish) :
    (s.setDish h d).cells.size = s.cells.size :=
  Array.size_modify

theorem size_setBorrowed (s : Store) (h : Handle) (b : Bool) :
    (s.setBorrowed h b).cells.size = s.cells.size :=
  Array.size_modify

theorem size_newDish (s : Store) (p : Payload) :
    (s.newDish p).1.cells.size = s.cells.size + 1 :=
  Array.size_push _

end Bakehouse.Store
