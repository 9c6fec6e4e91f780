import Bakehouse.Proofs.Borrowing
import Bakehouse.Proofs.Faults
import Bakehouse.Proofs.PositionalNumerals

namespace Bakehouse

theorem Dish.apply_pure (d : Dish) : d.apply pure = .ok d := by
  cases d <;> rfl

/-- Transformations one after another are one transformation. -/
theorem Dish.apply_bind (f g : Payload → Except Trouble Payload) (d : Dish) :
    d.apply (fun p => f p >>= g) = d.apply f >>= fun e => e.apply g := by
  cases d with
  | failed fault => rfl
  | good p =>
      simp only [Dish.apply]
      rcases f p with (fault | escape) | q <;> rfl

/-- Operations of the catalog with their arguments, to be carried out in order. -/
abbrev Recipe := List (Catalog × Arguments)

namespace Recipe

/-- What a recipe makes of a payload: the transformations of its steps, one after another, as long
as none of them fails. -/
def run (r : Recipe) (p : Payload) : Except Trouble Payload :=
  r.foldlM (fun q step => step.1.run step.2 q) p

theorem run_cons (step : Catalog × Arguments) (r : Recipe) :
    run (step :: r) = fun p => step.1.run step.2 p >>= r.run := by
  funext p
  exact List.foldlM_cons

theorem run_append (r₁ r₂ : Recipe) (p : Payload) : (r₁ ++ r₂).run p = r₁.run p >>= r₂.run :=
  List.foldlM_append

/-- A recipe that comes to grief does so in the first step that fails. -/
theorem run_eq_error_iff {r : Recipe} {p : Payload} {trouble : Trouble} :
    r.run p = .error trouble ↔ ∃ (before after : Recipe) (step : Catalog × Arguments) (q : Payload),
      r = before ++ step :: after ∧ before.run p = .ok q ∧
        step.1.run step.2 q = .error trouble := by
  constructor
  · intro hrun
    induction r generalizing p with
    | nil => cases hrun
    | cons step r ih =>
        simp only [run_cons] at hrun
        cases hstep : step.1.run step.2 p with
        | error e =>
            rw [hstep] at hrun
            cases hrun
            exact ⟨[], r, step, p, rfl, rfl, hstep⟩
        | ok q =>
            rw [hstep] at hrun
            obtain ⟨before, after, failing, q', rfl, hbefore, hfailing⟩ := ih hrun
            refine ⟨step :: before, after, failing, q', rfl, ?_, hfailing⟩
            simp only [run_cons, hstep]
            exact hbefore
  · rintro ⟨before, after, step, q, rfl, hbefore, hstep⟩
    rw [run_append, hbefore, run_cons]
    change step.1.run step.2 q >>= run after = _
    rw [hstep]
    rfl

/-- Functions that carry the steps of a recipe out. -/
def CarriedOutBy (r : Recipe) (fs : List Value) : Prop :=
  List.Forall₂
    (fun step f => ∃ id g, f = .native id g ∧ Raising.Applies step.1.operation step.2 g) r fs

end Recipe

theorem Raising.Applies.apply_eq {op : Operation} {bag : Arguments} {g : Native}
    (hg : Applies op bag g) (fuel id : Nat) (h : Handle) (caller : FrameId) :
    Bakehouse.apply (fuel + 1) (.native id g) [.dish h] caller =
      op.applyTo (Bakehouse.runProgram (Bakehouse.evaluate fuel)) bag h := by
  rw [Bakehouse.apply_succ]
  cases hg with
  | plain harity => exact applyStep_operation harity _ _ _ id h
  | configured bag => rfl

/-- An operation of the catalog does its transformation, and nothing else. -/
theorem Operation.applyTo_catalog (op : Catalog) (runText : RunText) (bag : Arguments) {h : Handle}
    {s : Store} {d : Dish} (hfree : s.isBorrowed h = false)
    (hd : (s.dish h).apply (op.run bag) = .ok d) :
    op.operation.applyTo runText bag h s = (.ok (.dish h), s.setDish h d) := by
  cases hdish : s.dish h with
  | failed f =>
      rw [hdish] at hd
      cases hd
      rw [Comparison.applyTo_failed _ _ _ hdish, ← hdish, Store.setDish_dish]
  | good p =>
      have hborrowed : (s.setBorrowed h true).dish h = .good p := by
        rw [Store.dish_setBorrowed, hdish]
      rw [hdish, Dish.apply] at hd
      rw [Comparison.applyTo_free _ _ _ hdish hfree]
      refine Run.bind_apply_ok (a := ()) (t := s.setDish h d) ?_
      rw [← Store.setBorrowed_setDish_setBorrowed hfree d]
      rcases hrun : op.run bag p with (f | e) | q
      · rw [hrun] at hd
        cases hd
        have hprocedure : op.operation.runProcedure runText h bag (s.setBorrowed h true) =
            (.ok (some f), s.setBorrowed h true) :=
          Operation.runProcedure_fault rfl hborrowed hrun runText
        simp only [Operation.borrowing, Run.bind_apply, hprocedure]
        rfl
      · rw [hrun] at hd
        cases hd
      · rw [hrun] at hd
        cases hd
        have hprocedure : op.operation.runProcedure runText h bag (s.setBorrowed h true) =
            (.ok none, (s.setBorrowed h true).setDish h (.good q)) := by
          simp only [Operation.runProcedure, Catalog.operation, Run.get_bind_apply, hborrowed, hrun]
          exact Run.bind_apply_ok (Comparison.updatePayload_good _ hborrowed)
        simp only [Operation.borrowing, Run.bind_apply, hprocedure]
        rfl

/-- The call of `bake` with a list of steps and something to bake. -/
def bake (fuel id : Nat) (caller : FrameId) (steps : List Value) (target : Value) : Run Value :=
  apply fuel (.native id (.builtin .bake)) [.list steps, target] caller

section Bake

variable (fuel id : Nat) (caller : FrameId) (h : Handle)

theorem bake_of_isFunction {steps : List Value} (hsteps : ∀ f ∈ steps, f.isFunction = true) :
    bake (fuel + 1) id caller steps (.dish h) = do
      forM steps fun f => do
        let _ ← apply fuel f [.dish h] caller
      return .dish h := by
  have hall : steps.all (·.isFunction) = true := List.all_eq_true.mpr hsteps
  rw [bake, apply_succ]
  change (if steps.all (·.isFunction) then _ else _) = _
  rw [if_pos hall]
  rfl

/-- A list with something in it that is no function is turned away before the first step. -/
theorem bake_of_not_isFunction {steps : List Value} {v : Value} (hv : v ∈ steps)
    (hfunction : v.isFunction = false) (target : Value) (s : Store) :
    ∃ e : TypeError, bake (fuel + 1) id caller steps target s = (.error (.error (.type e)), s) := by
  have hall : steps.all (·.isFunction) = false := by
    rw [List.all_eq_false]
    exact ⟨v, hv, by rw [hfunction]; exact Bool.false_ne_true⟩
  rw [bake, apply_succ]
  cases target with
  | dish h =>
      refine ⟨.bakeSteps, ?_⟩
      change (if steps.all (·.isFunction) then _ else _ : Run Value) s = _
      rw [hall]
      rfl
  | _ => exact ⟨.bakeDish, rfl⟩

theorem bake_append {r₁ r₂ : List Value} (h₁ : ∀ f ∈ r₁, f.isFunction = true)
    (h₂ : ∀ f ∈ r₂, f.isFunction = true) :
    bake fuel id caller (r₁ ++ r₂) (.dish h) =
      bake fuel id caller r₁ (.dish h) >>= bake fuel id caller r₂ := by
  cases fuel with
  | zero =>
      simp only [bake, apply]
      rfl
  | succ fuel =>
      have h₁₂ : ∀ f ∈ r₁ ++ r₂, f.isFunction = true := by
        intro f hf
        exact (List.mem_append.mp hf).elim (h₁ f) (h₂ f)
      rw [bake_of_isFunction fuel id caller h h₁₂, bake_of_isFunction fuel id caller h h₁,
        List.forM_append]
      simp only [bind_assoc, pure_bind, bake_of_isFunction fuel id caller h h₂]

theorem bake_nil (s : Store) : bake (fuel + 1) id caller [] (.dish h) s = (.ok (.dish h), s) := by
  rw [bake_of_isFunction fuel id caller h (List.forall_mem_nil _)]
  rfl

theorem bake_cons {f : Value} {fs : List Value} (hf : f.isFunction = true)
    (hfs : ∀ g ∈ fs, g.isFunction = true) :
    bake (fuel + 1) id caller (f :: fs) (.dish h) =
      apply fuel f [.dish h] caller >>= fun _ => bake (fuel + 1) id caller fs (.dish h) := by
  rw [bake_of_isFunction fuel id caller h (List.forall_mem_cons.mpr ⟨hf, hfs⟩),
    bake_of_isFunction fuel id caller h hfs, List.forM_cons]
  simp only [bind_assoc, pure_bind]

theorem Recipe.CarriedOutBy.isFunction {r : Recipe} {fs : List Value} (hfs : r.CarriedOutBy fs) :
    ∀ f ∈ fs, f.isFunction = true := by
  induction hfs with
  | nil => exact List.forall_mem_nil _
  | cons hf _ ih =>
      obtain ⟨id, g, rfl, _⟩ := hf
      exact List.forall_mem_cons.mpr ⟨rfl, ih⟩

/-- Baking a dish that nobody else works on does to it what the recipe does to its payload. -/
theorem bake_recipe {r : Recipe} {fs : List Value} (hfs : r.CarriedOutBy fs) {s : Store} {d : Dish}
    (hlt : h < s.cells.size) (hfree : s.isBorrowed h = false)
    (hd : (s.dish h).apply r.run = .ok d) :
    bake (fuel + 2) id caller fs (.dish h) s = (.ok (.dish h), s.setDish h d) := by
  induction hfs generalizing s with
  | nil =>
      have hsame : s.dish h = d := Except.ok.inj ((Dish.apply_pure (s.dish h)).symm.trans hd)
      rw [bake_nil, ← hsame, Store.setDish_dish]
  | @cons step f r fs hf hfs ih =>
      obtain ⟨id', g, rfl, hg⟩ := hf
      rw [Recipe.run_cons, Dish.apply_bind] at hd
      cases he : (s.dish h).apply (step.1.run step.2) with
      | error escape =>
          rw [he] at hd
          cases hd
      | ok e =>
          rw [he] at hd
          change e.apply (Recipe.run r) = .ok d at hd
          have hstep : apply (fuel + 1) (.native id' g) [.dish h] caller s =
              (.ok (.dish h), s.setDish h e) := by
            rw [hg.apply_eq]
            exact Operation.applyTo_catalog step.1 _ step.2 hfree he
          have hrest := ih (s := s.setDish h e) (by rwa [Store.size_setDish])
            (by rwa [Store.isBorrowed_setDish]) (by rwa [Store.dish_setDish hlt])
          rw [bake_cons _ _ _ _ rfl (Recipe.CarriedOutBy.isFunction hfs),
            Run.bind_apply_ok hstep, hrest, Store.setDish_setDish]

/-- A good dish that an operation is working on turns the first step away. -/
theorem bake_recipe_of_isBorrowed {r : Recipe} {fs : List Value} (hfs : r.CarriedOutBy fs)
    (hne : fs ≠ []) {s : Store} {p : Payload} (hgood : s.dish h = .good p)
    (hborrowed : s.isBorrowed h = true) :
    bake (fuel + 2) id caller fs (.dish h) s = (.error (.error .borrowed), s) := by
  cases hfs with
  | nil => exact absurd rfl hne
  | cons hf hfs =>
      obtain ⟨id', g, rfl, hg⟩ := hf
      rw [bake_cons _ _ _ _ rfl (Recipe.CarriedOutBy.isFunction hfs)]
      apply Run.bind_apply_error
      rw [hg.apply_eq]
      exact Comparison.applyTo_borrowed _ _ _ hgood hborrowed

/-- Baking checks its steps and then goes through them. Steps after other steps are baked as one
list of steps. A list with something in it that is no function is turned away before the first step.
And steps that carry out a recipe of the catalog give the dish back with what the recipe makes of
its payload, or with the fault of the first step that fails, unless an operation is working on the
dish already. -/
theorem baking_composes_steps :
    (∀ r₁ r₂ : List Value, (∀ f ∈ r₁, f.isFunction = true) → (∀ f ∈ r₂, f.isFunction = true) →
      bake fuel id caller (r₁ ++ r₂) (.dish h) =
        bake fuel id caller r₁ (.dish h) >>= bake fuel id caller r₂) ∧
    (∀ (steps : List Value) (target : Value) (s : Store), (∃ v ∈ steps, v.isFunction = false) →
      ∃ e : TypeError,
        bake (fuel + 1) id caller steps target s = (.error (.error (.type e)), s)) ∧
    ∀ (r : Recipe) (fs : List Value) (s : Store) (p : Payload), r.CarriedOutBy fs →
      h < s.cells.size → s.dish h = .good p →
      (s.isBorrowed h = false →
        (∀ q, r.run p = .ok q →
          bake (fuel + 2) id caller fs (.dish h) s = (.ok (.dish h), s.setDish h (.good q))) ∧
        (∀ (before after : Recipe) (step : Catalog × Arguments) (q : Payload) (f : Fault),
          r = before ++ step :: after → before.run p = .ok q →
          step.1.run step.2 q = .error (.fault f) →
          bake (fuel + 2) id caller fs (.dish h) s = (.ok (.dish h), s.setDish h (.failed f))) ∧
        (∀ d, (s.setDish h d).dish h = d) ∧
        ((∀ e, r.run p ≠ .error (.escape e)) →
          (∃ q, r.run p = .ok q) ∨
          ∃ (before after : Recipe) (step : Catalog × Arguments) (q : Payload) (f : Fault),
            r = before ++ step :: after ∧ before.run p = .ok q ∧
              step.1.run step.2 q = .error (.fault f))) ∧
      (s.isBorrowed h = true → fs ≠ [] →
        bake (fuel + 2) id caller fs (.dish h) s = (.error (.error .borrowed), s)) := by
  refine ⟨fun r₁ r₂ h₁ h₂ => bake_append fuel id caller h h₁ h₂, ?_, ?_⟩
  · rintro steps target s ⟨v, hv, hfunction⟩
    exact bake_of_not_isFunction fuel id caller hv hfunction target s
  · intro r fs s p hfs hlt hgood
    have hbake (hfree : s.isBorrowed h = false) {d : Dish}
        (hd : (Dish.good p).apply r.run = .ok d) :=
      bake_recipe fuel id caller h hfs hlt hfree (hgood ▸ hd)
    refine ⟨fun hfree => ⟨?_, ?_, fun d => Store.dish_setDish hlt d, ?_⟩, ?_⟩
    · intro q hq
      apply hbake hfree
      rw [Dish.apply, hq]
    · intro before after step q f hr hbefore hstep
      have hrun : r.run p = .error (.fault f) :=
        Recipe.run_eq_error_iff.mpr ⟨before, after, step, q, hr, hbefore, hstep⟩
      apply hbake hfree
      rw [Dish.apply, hrun]
    · intro hescape
      rcases hrun : r.run p with (f | e) | q
      · obtain ⟨before, after, step, q, hr, hbefore, hstep⟩ := Recipe.run_eq_error_iff.mp hrun
        exact .inr ⟨before, after, step, q, f, hr, hbefore, hstep⟩
      · exact absurd hrun (hescape e)
      · exact .inl ⟨q, rfl⟩
    · intro hborrowed hne
      exact bake_recipe_of_isBorrowed fuel id caller h hfs hne hgood hborrowed

end Bake

/-- A recipe whose second step cannot read what the first has left, a list with an empty list in it,
and a dish that an operation is working on. -/
theorem baking_composes_steps_spoilt :
    let bag : Arguments := ⟨[("n", .integer 13)]⟩
    let rotate : Value := .native 1 (.configured Catalog.rot13.operation bag)
    let fromHex : Value := .native 2 (.operation Catalog.fromHex.operation)
    let toBase64 : Value := .native 3 (.operation Catalog.toBase64.operation)
    let s : Store := { Store.empty with cells := #[⟨.good (.text "mm 14"), false⟩] }
    let t : Store := s.setBorrowed 0 true
    Recipe.CarriedOutBy [(.rot13, bag), (.fromHex, .empty), (.toBase64, .empty)]
        [rotate, fromHex, toBase64] ∧
      bake 2 0 baseFrame ([rotate] ++ [fromHex, toBase64]) (.dish 0) =
        bake 2 0 baseFrame [rotate] (.dish 0) >>= bake 2 0 baseFrame [fromHex, toBase64] ∧
      (∃ e : TypeError, bake 2 0 baseFrame [rotate, .nil] (.dish 0) s =
        (.error (.error (.type e)), s)) ∧
      bake 2 0 baseFrame [rotate] (.dish 0) s =
        (.ok (.dish 0), s.setDish 0 (.good (.text "zz 14"))) ∧
      bake 2 0 baseFrame [rotate, fromHex, toBase64] (.dish 0) s =
        (.ok (.dish 0), s.setDish 0 (.failed (.numeral .invalidDigit))) ∧
      bake 2 0 baseFrame [rotate, fromHex, toBase64] (.dish 0) t =
        (.error (.error .borrowed), t) := by
  intro bag rotate fromHex toBase64 s t
  have hrecipe := (baking_composes_steps 0 0 baseFrame 0).2.2
  have hrotate : Recipe.run [(.rot13, bag)] (.text "mm 14") = .ok (.text "zz 14") := by
    decide +kernel
  have hhex : Catalog.fromHex.run .empty (.text "zz 14") =
      .error (.fault (.numeral .invalidDigit)) := by
    decide +kernel
  have hone : Recipe.CarriedOutBy [(.rot13, bag)] [rotate] :=
    .cons ⟨1, _, rfl, .configured bag⟩ .nil
  have hall : Recipe.CarriedOutBy [(.rot13, bag), (.fromHex, .empty), (.toBase64, .empty)]
      [rotate, fromHex, toBase64] :=
    .cons ⟨1, _, rfl, .configured bag⟩
      (.cons ⟨2, _, rfl, .plain rfl⟩ (.cons ⟨3, _, rfl, .plain rfl⟩ .nil))
  refine ⟨hall, ?_, ?_, ?_, ?_, ?_⟩
  · exact (baking_composes_steps 2 0 baseFrame 0).1 [rotate] [fromHex, toBase64] (by decide)
      (by decide)
  · exact (baking_composes_steps 1 0 baseFrame 0).2.1 [rotate, .nil] (.dish 0) s
      ⟨.nil, by simp, rfl⟩
  · exact ((hrecipe _ _ s _ hone (by decide) rfl).1 rfl).1 _ hrotate
  · exact ((hrecipe _ _ s _ hall (by decide) rfl).1 rfl).2.1 _ _ _ _ _ rfl hrotate hhex
  · exact (hrecipe _ _ t _ hall (by decide) rfl).2 rfl (List.cons_ne_nil _ _)

/-- An operation of the catalog would reverse the dish, but an operation that runs this very program
is working on it. -/
theorem borrowed_dish_is_not_baked :
    let s := (Form.load (.dish (.text "abc")) (Store.initial [])).2
    let h := (Store.initial []).cells.size
    let t := s.setBorrowed h true
    Reachable t ∧ t.dish h = .good (.text "abc") ∧
      Recipe.CarriedOutBy [(.reverse, .empty)] [.native 7 (.operation Catalog.reverse.operation)] ∧
      Recipe.run [(.reverse, .empty)] (.text "abc") = .ok (.text "cba") ∧
      bake 3 8 baseFrame [.native 7 (.operation Catalog.reverse.operation)] (.dish h) t =
        (.error (.error .borrowed), t) := by
  intro s h t
  have hs : AtRest s := (AtRest.initial []).load _
  have hgood : s.dish h = .good (.text "abc") := Store.dish_newDish_size (Store.initial []) _
  let again : Operation := ⟨"again", [], .custom [.eval "(bake (recipe reverse) d)"]⟩
  have hvisits : ApplicationVisits 1 (.native 7 (.operation again)) [.dish h] baseFrame s t :=
    visits_borrowed hgood (hs.isBorrowed_eq h) again rfl rfl 0 7 baseFrame
  have hborrowed : t.isBorrowed h = true := by
    apply Store.isBorrowed_setBorrowed_true
    change h < ((Store.initial []).newDish (.text "abc")).1.cells.size
    rw [Store.size_newDish]
    exact Nat.lt_succ_self _
  have hgood' : t.dish h = .good (.text "abc") := by rw [Store.dish_setBorrowed, hgood]
  have hfs : Recipe.CarriedOutBy [(.reverse, .empty)]
      [.native 7 (.operation Catalog.reverse.operation)] :=
    .cons ⟨7, _, rfl, .plain rfl⟩ .nil
  refine ⟨.applying hs hvisits, hgood', hfs, by decide, ?_⟩
  exact bake_recipe_of_isBorrowed 1 8 baseFrame h hfs (List.cons_ne_nil _ _) hgood' hborrowed

end Bakehouse
