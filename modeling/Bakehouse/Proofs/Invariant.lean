import Bakehouse.Proofs.Bindings
import Bakehouse.Proofs.Comparison.Evaluator

namespace Bakehouse

/-- A property of stores with one law for every basic change. The stage tells which dishes are being
worked on. -/
structure Invariant where
  Stage : Type
  allowed : Native → Prop
  /-- The frames that definitions may go to. -/
  writable : FrameId → Prop
  holds : Stage → Store → Prop
  configured {op : Operation} {bag : Arguments} :
    op.Makes bag → allowed (.operation op) → allowed (.configured op bag)
  writable_base {f : Native} : allowed f → f.reenters = true → writable baseFrame
  /-- The counter of identities and the output do not matter. -/
  congr {i : Stage} {s t : Store} :
    holds i s → t.scopes = s.scopes → t.cells = s.cells → holds i t
  push {i : Stage} {s : Store} (e : FrameId) : holds i s →
    writable s.scopes.frames.size ∧ holds i { s with scopes := (s.scopes.push e).1 }
  define {i : Stage} {s : Store} {e : FrameId} (x : Symbol) (v : Value) : holds i s → writable e →
    holds i { s with scopes := s.scopes.define e x v }
  newDish {i : Stage} {s : Store} (p : Payload) : holds i s → holds i (s.newDish p).1
  payload {i : Stage} {s : Store} {h : Handle} {p : Payload} (q : Payload) : holds i s →
    s.dish h = .good p → holds i (s.setDish h (.good q))
  borrow {i : Stage} {s : Store} {h : Handle} {p : Payload} : holds i s → s.dish h = .good p →
    s.isBorrowed h = false → ∃ j, holds j (s.setBorrowed h true) ∧
      ∀ {t : Store}, holds j t → holds i (t.setBorrowed h false) ∧
        ∀ {g : Native} {f : Fault}, allowed g → g.Spoils f →
          holds i ((t.setDish h (.failed f)).setBorrowed h false)

namespace Invariant

/-- The invariant holds, and only allowed native functions are bound. -/
structure Stands (I : Invariant) (i : I.Stage) (s : Store) : Prop where
  holds : I.holds i s
  natives : ∀ f ∈ s.natives, I.allowed f

def comparison (I : Invariant) (lenient : Prop) : Comparison where
  Stage := I.Stage
  lenient := lenient
  allowed := I.allowed
  writable := I.writable
  known _ := True
  store i M s t := M = .same ∧ s = t ∧ I.Stands i s
  configured := I.configured
  writable_base := I.writable_base
  known_all _ _ _ := trivial
  frame_base := by
    rintro i M s t ⟨rfl, _⟩
    rfl
  dish_eq := by
    rintro i M s t h k ⟨rfl, rfl, _⟩ rfl
    rfl
  borrowed_eq := by
    rintro i M s t h k ⟨rfl, rfl, _⟩ rfl
    rfl
  identity_iff := by
    rintro i M s t a a' b b' ⟨rfl, _⟩ rfl rfl
    rfl
  store_lookup := by
    rintro i M s t e e' x ⟨rfl, rfl, hs⟩ rfl _
    cases hfound : s.scopes.lookup? e x with
    | none => exact .none
    | some v =>
        refine .some ((v.matches_self (fun _ => rfl) (fun _ => rfl) (fun _ _ => rfl) ?_).agrees
          fun _ => trivial)
        exact fun f hf => hs.natives f (Store.natives_of_lookup? hfound hf)
  store_newIdentity := by
    rintro i M s t ⟨rfl, rfl, hs⟩
    exact ⟨.same, le_rfl, rfl, rfl, rfl, I.congr hs.holds rfl rfl, hs.natives⟩
  store_write := by
    rintro i M s t text ⟨rfl, rfl, hs⟩
    exact ⟨rfl, rfl, I.congr hs.holds rfl rfl, hs.natives⟩
  store_newDish := by
    rintro i M s t p ⟨rfl, rfl, hs⟩
    exact ⟨.same, le_rfl, rfl, rfl, rfl, I.newDish p hs.holds, hs.natives⟩
  store_push := by
    rintro i M s t e e' ⟨rfl, rfl, hs⟩ rfl
    obtain ⟨hwritable, hholds⟩ := I.push e hs.holds
    exact ⟨.same, le_rfl, rfl, hwritable, rfl, rfl, hholds,
      fun f hf => hs.natives f (Store.natives_push hf)⟩
  store_define := by
    rintro i M s t e e' x v v' ⟨rfl, rfl, hs⟩ rfl hwritable hv
    cases hv.matches.eq_of_same
    refine ⟨rfl, rfl, I.define x v hs.holds hwritable, fun f hf => ?_⟩
    rcases Store.natives_define hf with hf | hf
    · exact hs.natives f hf
    · exact hv.matches.natives_allowed f hf
  store_payload := by
    rintro i M s t h k p q ⟨rfl, rfl, hs⟩ rfl hgood
    exact ⟨rfl, rfl, I.payload q hs.holds hgood, hs.natives⟩
  store_borrow := by
    rintro i M s t h k p ⟨rfl, rfl, hs⟩ rfl hgood hfree
    obtain ⟨j, hj, hrelease⟩ := I.borrow hs.holds hgood hfree
    refine ⟨j, ⟨rfl, rfl, hj, hs.natives⟩, ?_⟩
    rintro N s' t' _ ⟨rfl, rfl, hs'⟩
    obtain ⟨hplain, hspoilt⟩ := hrelease hs'.holds
    exact ⟨⟨rfl, rfl, hplain, hs'.natives⟩, fun hg hf => ⟨rfl, rfl, hspoilt hg hf, hs'.natives⟩⟩

variable {I : Invariant} {α : Type}

/-- What agrees with something else in the strict comparison keeps the invariant. -/
theorem stands_of_agrees {β : Type} {R : Matching → α → β → Prop} {m : Run α} {m' : Run β}
    (h : (I.comparison False).Agrees .same R m m') {i : I.Stage} {s : Store} (hs : I.Stands i s) :
    I.Stands i (m s).2 := by
  obtain ⟨N, _, ⟨_, _, hstands⟩, _⟩ := (h i .same s s le_rfl ⟨rfl, rfl, hs⟩).matched not_false
  exact hstands

/-- In the comparison of runs with themselves, matching outcomes are the same. -/
theorem eq_of_ends {lenient : Prop} {i : I.Stage} {M : Matching} {o o' : Except Halt Value × Store}
    (h : (I.comparison lenient).Ends i M (I.comparison lenient).Val o o') :
    (lenient ∧ o.1 = .error .outOfFuel) ∨ o = o' := by
  rcases h with hfuel | ⟨N, _, ⟨rfl, hstore, _⟩, hcorr⟩
  · exact .inl hfuel
  · refine .inr (Prod.ext ?_ hstore)
    revert hcorr
    generalize o.1 = r, o'.1 = r'
    rintro (hv | e)
    · rw [hv.matches.eq_of_same]
    · rfl

theorem val_self {lenient : Prop} {v : Value} (hv : ∀ f ∈ v.natives, I.allowed f) :
    (I.comparison lenient).Val .same v v :=
  (v.matches_self (fun _ => rfl) (fun _ => rfl) (fun _ _ => rfl) hv).agrees fun _ => trivial

theorem code_self {lenient : Prop} {v : Value} (hv : ∀ f ∈ v.natives, I.allowed f) :
    (I.comparison lenient).Code .same v v :=
  ⟨fun _ _ => trivial, val_self hv⟩

theorem vals_self {lenient : Prop} {vs : List Value}
    (hvs : ∀ f ∈ Value.nativesAll vs, I.allowed f) : (I.comparison lenient).Vals .same vs vs :=
  Value.AllMatch.allAgree (fun _ => trivial)
    (Value.allMatch_self (fun _ => rfl) (fun _ => rfl) vs (fun _ _ => rfl) hvs)

theorem Stands.evaluate {i : I.Stage} {s : Store} (hs : I.Stands i s) (fuel : Nat) {e : Value}
    (he : ∀ f ∈ e.natives, I.allowed f) {frame : FrameId} (hframe : I.writable frame) :
    I.Stands i (evaluate fuel e frame s).2 :=
  stands_of_agrees (Comparison.agrees_evaluate fuel (code_self he) rfl hframe) hs

theorem Stands.apply {i : I.Stage} {s : Store} (hs : I.Stands i s) (fuel : Nat) {f : Value}
    (hf : ∀ g ∈ f.natives, I.allowed g) {args : List Value}
    (hargs : ∀ g ∈ Value.nativesAll args, I.allowed g) (caller : FrameId) :
    I.Stands i (apply fuel f args caller s).2 :=
  stands_of_agrees (Comparison.agrees_apply fuel (val_self hf) (vals_self hargs) caller caller) hs

theorem Stands.load {i : I.Stage} {s : Store} (hs : I.Stands i s) (f : Form) :
    I.Stands i (f.load s).2 :=
  stands_of_agrees (Comparison.agrees_load f .same) hs

theorem Stands.runForms {i : I.Stage} {s : Store} (hs : I.Stands i s) (fuel : Nat)
    (forms : List Form) (error : Option ReadError) {frame : FrameId} (hframe : I.writable frame) :
    I.Stands i (runForms (fun v => Bakehouse.evaluate fuel v frame) none forms error s).2 :=
  stands_of_agrees (Comparison.agrees_runForms (fun hN hv =>
    Comparison.agrees_evaluate fuel hv (hN.frame rfl) hframe) error (fun _ _ _ _ => trivial) .none) hs

theorem Stands.evalText {i : I.Stage} {s : Store} (hs : I.Stands i s) (fuel : Nat) (code : String)
    (hbase : I.writable baseFrame) : I.Stands i (evalText fuel code s).2 :=
  stands_of_agrees (Comparison.agrees_evalText fuel code (fun _ _ _ _ => trivial) rfl hbase) hs

theorem Stands.evalOne {i : I.Stage} {s : Store} (hs : I.Stands i s) (fuel : Nat) (code : String)
    (hbase : I.writable baseFrame) : I.Stands i (evalOne fuel code s).2 :=
  stands_of_agrees (Comparison.agrees_evalOne fuel code (fun _ _ _ _ => trivial) rfl hbase) hs

theorem Stands.register {i : I.Stage} {s : Store} (hs : I.Stands i s) {ops : List Operation}
    (hops : ∀ op ∈ ops, I.allowed (.operation op)) (hbase : I.writable baseFrame) :
    I.Stands i (register ops s).2 :=
  stands_of_agrees (Comparison.agrees_registerFrom ops hops rfl hbase []) hs

theorem stands_initial (characters : Pattern.CharacterNames) (hbuiltin : ∀ b, I.allowed (.builtin b))
    (hcatalog : ∀ op : Catalog, I.allowed (.operation op.operation)) (hbase : I.writable baseFrame)
    {i : I.Stage} (hempty : I.holds i Store.empty) : I.Stands i (Store.initial characters) :=
  stands_of_agrees (Comparison.agrees_installBase characters hbuiltin hcatalog rfl hbase)
    ⟨hempty, by simp [Store.natives, Frame.natives, Store.empty, Scopes.base]⟩

end Invariant

end Bakehouse
