import Bakehouse.Proofs.Comparison.Evaluator
import Mathlib

namespace Bakehouse

/-- A number is equal to itself unless it is none. -/
theorem Number.beq_self_iff (x : Float) : (x == x) = true ↔ x.isNaN = false := by
  rw [Float.beq_self_iff, Float.isNaN_eq_decide_eq_nan, decide_eq_false_iff_not]

namespace Value

/-- What it takes for values to be equal, kind by kind, when the dishes hold what they hold. -/
inductive Equal (dishes : Handle → Dish) : Value → Value → Prop
  | number {x y : Float} (h : (x == y) = true) : Equal dishes (.number x) (.number y)
  | boolean (b : Bool) : Equal dishes (.boolean b) (.boolean b)
  | text (s : String) : Equal dishes (.text s) (.text s)
  | symbol (x : Symbol) : Equal dishes (.symbol x) (.symbol x)
  | list {vs ws : List Value} (h : List.Forall₂ (Equal dishes) vs ws) :
      Equal dishes (.list vs) (.list ws)
  | dish {h k : Handle} {p : Payload} (hh : dishes h = .good p) (hk : dishes k = .good p) :
      Equal dishes (.dish h) (.dish k)
  | lambda (id : Nat) {params params' : List Symbol} {body body' : Value} {i j : FrameId} :
      Equal dishes (.lambda id params body i) (.lambda id params' body' j)
  | native (id : Nat) {f g : Native} : Equal dishes (.native id f) (.native id g)

/-- The second value is the first one or an item in it, at any depth. -/
inductive Contains : Value → Value → Prop
  | self (v : Value) : Contains v v
  | item {vs : List Value} {v w : Value} (hv : v ∈ vs) (h : Contains v w) : Contains (.list vs) w

variable {dishes : Handle → Dish}

theorem Equal.of_dishes {h k : Handle} (hsame : (dishes h).same (dishes k) = true) :
    Equal dishes (.dish h) (.dish k) := by
  cases hh : dishes h with
  | failed f => simp [Dish.same, hh] at hsame
  | good p =>
      cases hk : dishes k with
      | failed f => simp [Dish.same, hh, hk] at hsame
      | good q =>
          simp only [Dish.same, hh, hk, beq_iff_eq] at hsame
          exact .dish hh (hsame ▸ hk)

mutual

theorem equal_of_same (v w : Value) (h : v.same dishes w = true) : Equal dishes v w := by
  unfold same at h
  split at h
  · exact .number h
  · exact eq_of_beq h ▸ .boolean _
  · exact eq_of_beq h ▸ .text _
  · exact of_decide_eq_true h ▸ .symbol _
  · exact .list (allEqual_of_sameAll _ _ h)
  · exact .of_dishes h
  · exact eq_of_beq h ▸ .lambda _
  · exact eq_of_beq h ▸ .native _
  · cases h

theorem allEqual_of_sameAll (vs ws : List Value) (h : sameAll dishes vs ws = true) :
    List.Forall₂ (Equal dishes) vs ws := by
  unfold sameAll at h
  split at h
  · exact .nil
  · rw [Bool.and_eq_true] at h
    exact .cons (equal_of_same _ _ h.1) (allEqual_of_sameAll _ _ h.2)
  · cases h

end

mutual

theorem Equal.same {v w : Value} : Equal dishes v w → v.same dishes w = true
  | .number h => by simpa only [Value.same] using h
  | .boolean _ | .text _ | .symbol _ | .lambda _ | .native _ => by simp [Value.same]
  | .list h => by simpa only [Value.same] using Equal.sameAll h
  | .dish hh hk => by simp [Value.same, Dish.same, hh, hk]

theorem Equal.sameAll {vs ws : List Value} :
    List.Forall₂ (Equal dishes) vs ws → Value.sameAll dishes vs ws = true
  | .nil => by simp only [Value.sameAll]
  | .cons h hs => by simp only [Value.sameAll, h.same, Equal.sameAll hs, Bool.and_self]

end

theorem same_iff_equal (v w : Value) : v.same dishes w = true ↔ Equal dishes v w :=
  ⟨equal_of_same v w, Equal.same⟩

mutual

theorem Equal.symm {v w : Value} : Equal dishes v w → Equal dishes w v
  | .number h => .number (BEq.symm h)
  | .boolean b => .boolean b
  | .text s => .text s
  | .symbol x => .symbol x
  | .list h => .list (Equal.symmAll h)
  | .dish hh hk => .dish hk hh
  | .lambda id => .lambda id
  | .native id => .native id

theorem Equal.symmAll {vs ws : List Value} :
    List.Forall₂ (Equal dishes) vs ws → List.Forall₂ (Equal dishes) ws vs
  | .nil => .nil
  | .cons h hs => .cons h.symm (Equal.symmAll hs)

end

mutual

theorem Equal.trans {u v w : Value} : Equal dishes u v → Equal dishes v w → Equal dishes u w
  | .number h, .number h' => .number (BEq.trans h h')
  | .boolean b, .boolean _ => .boolean b
  | .text s, .text _ => .text s
  | .symbol x, .symbol _ => .symbol x
  | .list h, .list h' => .list (Equal.transAll h h')
  | .dish hh hk, .dish hk' hl => .dish (hh.trans (hk.symm.trans hk')) hl
  | .lambda id, .lambda _ => .lambda id
  | .native id, .native _ => .native id

theorem Equal.transAll {us vs ws : List Value} :
    List.Forall₂ (Equal dishes) us vs → List.Forall₂ (Equal dishes) vs ws →
      List.Forall₂ (Equal dishes) us ws
  | .nil, .nil => .nil
  | .cons h hs, .cons h' hs' => .cons (h.trans h') (Equal.transAll hs hs')

end

/-- What is in a value that is equal to itself is equal to itself. -/
theorem Contains.equal_self {v w : Value} (h : v.Contains w) (hv : Equal dishes v v) :
    Equal dishes w w := by
  induction h with
  | self v => exact hv
  | item hmem _ ih =>
      cases hv with
      | list hitems =>
          apply ih
          exact List.forall₂_same.mp hitems _ hmem

mutual

theorem equal_self : ∀ v : Value, (∀ x, v.Contains (.number x) → x.isNaN = false) →
    (∀ h, v.Contains (.dish h) → (dishes h).isGood = true) → Equal dishes v v
  | .number x, hnumbers, _ => .number ((Number.beq_self_iff x).mpr (hnumbers x (.self _)))
  | .boolean b, _, _ => .boolean b
  | .text s, _, _ => .text s
  | .symbol x, _, _ => .symbol x
  | .list vs, hnumbers, hdishes =>
      .list (allEqual_self vs (fun _ hv x hx => hnumbers x (.item hv hx))
        fun _ hv h hh => hdishes h (.item hv hh))
  | .dish h, _, hdishes => by
      have hgood := hdishes h (.self _)
      cases hdish : dishes h with
      | good p => exact .dish hdish hdish
      | failed f =>
          rw [hdish] at hgood
          cases hgood
  | .lambda id _ _ _, _, _ => .lambda id
  | .native id _, _, _ => .native id

theorem allEqual_self : ∀ vs : List Value,
    (∀ v ∈ vs, ∀ x, v.Contains (.number x) → x.isNaN = false) →
    (∀ v ∈ vs, ∀ h, v.Contains (.dish h) → (dishes h).isGood = true) →
      List.Forall₂ (Equal dishes) vs vs
  | [], _, _ => .nil
  | v :: vs, hnumbers, hdishes => by
      rw [List.forall_mem_cons] at hnumbers hdishes
      exact .cons (equal_self v hnumbers.1 hdishes.1) (allEqual_self vs hnumbers.2 hdishes.2)

end

theorem equal_self_iff (v : Value) :
    Equal dishes v v ↔
      (∀ x, v.Contains (.number x) → x.isNaN = false) ∧
        ∀ h, v.Contains (.dish h) → (dishes h).isGood = true := by
  refine ⟨fun hv => ⟨fun x hx => ?_, fun h hh => ?_⟩, fun h => equal_self v h.1 h.2⟩
  · cases hx.equal_self hv with
    | number hself => exact (Number.beq_self_iff x).mp hself
  · cases hh.equal_self hv with
    | dish hgood _ =>
        rw [hgood]
        rfl

end Value

namespace Store

variable {s : Store}

theorem same_symm {v w : Value} (h : s.same v w = true) : s.same w v = true := by
  rw [same, Value.same_iff_equal] at h ⊢
  exact h.symm

theorem same_trans {u v w : Value} (huv : s.same u v = true) (hvw : s.same v w = true) :
    s.same u w = true := by
  rw [same, Value.same_iff_equal] at huv hvw ⊢
  exact huv.trans hvw

/-- When there are others, they all equal the first value only if each two values are equal. -/
theorem all_same_iff {v : Value} {others : List Value} (hne : others ≠ []) :
    others.all (s.same v) = true ↔ ∀ a ∈ v :: others, ∀ b ∈ v :: others, s.same a b = true := by
  rw [List.all_eq_true]
  constructor
  · intro hall
    obtain ⟨w, hw⟩ := List.exists_mem_of_ne_nil others hne
    have hself : s.same v v = true := same_trans (hall w hw) (same_symm (hall w hw))
    have hfirst : ∀ a ∈ v :: others, s.same v a = true := List.forall_mem_cons.mpr ⟨hself, hall⟩
    intro a ha b hb
    exact same_trans (same_symm (hfirst a ha)) (hfirst b hb)
  · intro hall w hw
    exact hall v List.mem_cons_self w (List.mem_cons_of_mem v hw)

end Store

/-- The builtin that compares its arguments answers whether each two of them are equal. -/
theorem exists_apply_equal (s : Store) {args : List Value} (hlen : 2 ≤ args.length) :
    ∃ b : Bool, (b = true ↔ ∀ v ∈ args, ∀ w ∈ args, s.same v w = true) ∧
      ∀ fuel id caller,
        apply (fuel + 1) (.native id (.builtin .equal)) args caller s = (.ok (.boolean b), s) := by
  match args, hlen with
  | v :: w :: others, _ =>
      refine ⟨(w :: others).all (s.same v), Store.all_same_iff (List.cons_ne_nil w others), ?_⟩
      intro fuel id caller
      rw [apply_succ]
      rfl

/-- Equality is symmetric and transitive; what is equal to itself are the values in which, at any
depth, no dish has failed and every number is one. Two or more arguments are found equal in any
order or in none, namely if each two of them are equal. -/
theorem equality_is_partial_equivalence (s : Store) :
    (∀ a b, s.same a b = s.same b a) ∧
    (∀ a b c, s.same a b = true → s.same b c = true → s.same a c = true) ∧
    (∀ a, s.same a a = true ↔
      (∀ x, a.Contains (.number x) → x.isNaN = false) ∧
        ∀ h, a.Contains (.dish h) → (s.dish h).isGood = true) ∧
    ∀ args : List Value, 2 ≤ args.length →
      ∃ b : Bool, (b = true ↔ ∀ v ∈ args, ∀ w ∈ args, s.same v w = true) ∧
        ∀ args', args.Perm args' → ∀ fuel id caller,
          apply (fuel + 1) (.native id (.builtin .equal)) args' caller s =
            (.ok (.boolean b), s) := by
  refine ⟨?_, ?_, ?_, ?_⟩
  · intro a b
    rw [Bool.eq_iff_iff]
    exact ⟨Store.same_symm, Store.same_symm⟩
  · intro a b c hab hbc
    exact Store.same_trans hab hbc
  · intro a
    rw [Store.same, Value.same_iff_equal]
    exact Value.equal_self_iff a
  · intro args hlen
    obtain ⟨b, hb, _⟩ := exists_apply_equal s hlen
    refine ⟨b, hb, fun args' hperm => ?_⟩
    obtain ⟨b', hb', happly⟩ := exists_apply_equal s (hperm.length_eq ▸ hlen)
    have hsame : b' = b := by
      rw [Bool.eq_iff_iff, hb, hb']
      simp only [hperm.mem_iff]
    rw [← hsame]
    exact happly

/-- Lists of dishes with one payload, and one more with a dish that has failed. -/
theorem equality_is_partial_equivalence_dishes :
    let s : Store := { Store.empty with cells :=
      #[⟨.good (.text "a"), false⟩, ⟨.good (.text "a"), false⟩, ⟨.failed (.custom "raw"), false⟩] }
    let a : Value := .list [.dish 0, .text "x"]
    let b : Value := .list [.dish 1, .text "x"]
    let c : Value := .list [.dish 2, .text "x"]
    s.same a b = true ∧ s.same b a = true ∧ s.same a a = true ∧ s.same c c = false ∧
      2 ≤ [a, b, c].length ∧ [a, b, c].Perm [c, a, b] ∧
      apply 1 (.native 0 (.builtin .equal)) [c, a, b] baseFrame s = (.ok (.boolean false), s) := by
  intro s a b c
  obtain ⟨hcomm, htrans, hself, hargs⟩ := equality_is_partial_equivalence s
  have hab : s.same a b = true := by
    simp [s, a, b, Store.same, Value.same, Value.sameAll, Store.dish, Dish.same]
  have hcc : s.same c c = false := by
    rw [Bool.eq_false_iff]
    intro hsame
    have hgood := ((hself c).mp hsame).2 2 (.item List.mem_cons_self (.self _))
    cases hgood
  have hba : s.same b a = true := (hcomm b a).trans hab
  have hperm : [a, b, c].Perm [c, a, b] := List.perm_append_singleton c [a, b]
  obtain ⟨answer, hanswer, happly⟩ := hargs [a, b, c] (by simp)
  have hno : answer = false := by
    rw [Bool.eq_false_iff]
    intro hyes
    have hsame := hanswer.mp hyes c (by simp) c (by simp)
    rw [hcc] at hsame
    cases hsame
  refine ⟨hab, hba, htrans a b a hab hba, hcc, by simp, hperm, ?_⟩
  rw [happly [c, a, b] hperm 0 0 baseFrame, hno]

end Bakehouse
