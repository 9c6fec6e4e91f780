import Bakehouse.Language.Evaluator
import Bakehouse.Proofs.Agreement

/-!
Comparing runs. A comparison relates stores of two runs, says that the relation survives every basic
change of a store, and so carries over to everything that is made of these changes. Invariants of a
single run are comparisons of a run with itself.
-/

namespace Bakehouse

def Action.reenters : Action → Bool
  | .eval _ => true
  | .both first second => first.reenters || second.reenters
  | .branch _ yes no => yes.reenters || no.reenters
  | .attempt body handler => body.reenters || handler.reenters
  | _ => false

/-- Whether a custom operation runs code while it works on a dish. -/
def Operation.reenters (op : Operation) : Bool :=
  match op.procedure with
  | .catalog _ => false
  | .custom actions => actions.any (·.reenters)

def Native.reenters : Native → Bool
  | .builtin _ => false
  | .operation op => op.reenters
  | .configured op _ => op.reenters

/-- A call makes the arguments for the operation. -/
def Operation.Makes (op : Operation) (bag : Arguments) : Prop :=
  ∃ vs s t, op.arguments vs s = (.ok bag, t)

/-- The operation can find this fault in a dish. -/
def Operation.Finds (op : Operation) (bag : Arguments) (f : Fault) : Prop :=
  ∃ runText h s t, op.runProcedure runText h bag s = (.ok (some f), t)

/-- The function can spoil a dish with this fault. -/
def Native.Spoils : Native → Fault → Prop
  | .builtin _, _ => False
  | .operation op, f => op.arity = 0 ∧ op.Finds .empty f
  | .configured op bag, f => op.Finds bag f

/-- Two runs end alike: with answers that `R` relates, or with the same error. -/
inductive Corresponds {α β : Type} (R : α → β → Prop) : Except Halt α → Except Halt β → Prop
  | ok {a : α} {b : β} (h : R a b) : Corresponds R (.ok a) (.ok b)
  | error (e : Halt) : Corresponds R (.error e) (.error e)

theorem Corresponds.imp {α β : Type} {R R' : α → β → Prop} {r : Except Halt α} {r' : Except Halt β}
    (h : Corresponds R r r') (hR : ∀ a b, R a b → R' a b) : Corresponds R' r r' := by
  cases h with
  | ok hab => exact .ok (hR _ _ hab)
  | error e => exact .error e

theorem Corresponds.error_iff {α β : Type} {R : α → β → Prop} {r : Except Halt α}
    {r' : Except Halt β} (h : Corresponds R r r') (e : Halt) : r = .error e ↔ r' = .error e := by
  cases h with
  | ok _ => simp
  | error _ => simp

/-- A way to compare two runs: which stores correspond, with one law for every basic change. The
stage tells which dishes are being worked on. -/
structure Comparison where
  Stage : Type
  /-- Whether the first run may want for fuel where the second does not. -/
  lenient : Prop
  allowed : Native → Prop
  /-- The frames that definitions may go to. -/
  writable : FrameId → Prop
  /-- The names that code may look up. -/
  known : Symbol → Prop
  store : Stage → Matching → Store → Store → Prop
  configured {op : Operation} {bag : Arguments} :
    op.Makes bag → allowed (.operation op) → allowed (.configured op bag)
  writable_base {f : Native} : allowed f → f.reenters = true → writable baseFrame
  known_all {f : Native} : allowed f → f.reenters = true → ∀ x, known x
  frame_base {i : Stage} {M : Matching} {s t : Store} : store i M s t → M.frame baseFrame baseFrame
  dish_eq {i : Stage} {M : Matching} {s t : Store} {h k : Handle} :
    store i M s t → M.handle h k → s.dish h = t.dish k
  borrowed_eq {i : Stage} {M : Matching} {s t : Store} {h k : Handle} :
    store i M s t → M.handle h k → s.isBorrowed h = t.isBorrowed k
  identity_iff {i : Stage} {M : Matching} {s t : Store} {a a' b b' : Nat} :
    store i M s t → M.identity a a' → M.identity b b' → (a = b ↔ a' = b')
  store_lookup {i : Stage} {M : Matching} {s t : Store} {e e' : FrameId} {x : Symbol} :
    store i M s t → M.frame e e' → known x →
      Option.Rel (Value.Agrees M allowed known) (s.scopes.lookup? e x) (t.scopes.lookup? e' x)
  store_newIdentity {i : Stage} {M : Matching} {s t : Store} :
    store i M s t → ∃ N, M ≤ N ∧ N.identity s.fresh t.fresh ∧
      store i N { s with fresh := s.fresh + 1 } { t with fresh := t.fresh + 1 }
  store_write {i : Stage} {M : Matching} {s t : Store} (text : String) :
    store i M s t →
      store i M { s with output := s.output ++ text } { t with output := t.output ++ text }
  store_newDish {i : Stage} {M : Matching} {s t : Store} (p : Payload) :
    store i M s t → ∃ N, M ≤ N ∧ N.handle s.cells.size t.cells.size ∧
      store i N (s.newDish p).1 (t.newDish p).1
  store_push {i : Stage} {M : Matching} {s t : Store} {e e' : FrameId} :
    store i M s t → M.frame e e' → ∃ N, M ≤ N ∧
      N.frame s.scopes.frames.size t.scopes.frames.size ∧ writable s.scopes.frames.size ∧
        store i N { s with scopes := (s.scopes.push e).1 } { t with scopes := (t.scopes.push e').1 }
  store_define {i : Stage} {M : Matching} {s t : Store} {e e' : FrameId} (x : Symbol)
      {v v' : Value} :
    store i M s t → M.frame e e' → writable e → Value.Agrees M allowed known v v' →
      store i M { s with scopes := s.scopes.define e x v }
        { t with scopes := t.scopes.define e' x v' }
  store_payload {i : Stage} {M : Matching} {s t : Store} {h k : Handle} {p : Payload}
      (q : Payload) :
    store i M s t → M.handle h k → s.dish h = .good p →
      store i M (s.setDish h (.good q)) (t.setDish k (.good q))
  store_borrow {i : Stage} {M : Matching} {s t : Store} {h k : Handle} {p : Payload} :
    store i M s t → M.handle h k → s.dish h = .good p → s.isBorrowed h = false →
      ∃ j, store j M (s.setBorrowed h true) (t.setBorrowed k true) ∧
        ∀ {N : Matching} {s' t' : Store}, M ≤ N → store j N s' t' →
          store i N (s'.setBorrowed h false) (t'.setBorrowed k false) ∧
            ∀ {g : Native} {f : Fault}, allowed g → g.Spoils f →
              store i N ((s'.setDish h (.failed f)).setBorrowed h false)
                ((t'.setDish k (.failed f)).setBorrowed k false)

namespace Run

variable {α β : Type}

theorem bind_apply (m : Run α) (k : α → Run β) (s : Store) :
    (m >>= k) s = match m s with
      | (.ok a, t) => k a t
      | (.error e, t) => (.error e, t) := by
  change ExceptT.bindCont k (m s).1 (m s).2 = _
  rcases m s with ⟨_ | _, t⟩ <;> rfl

theorem bind_apply_ok {m : Run α} {k : α → Run β} {s t : Store} {a : α} (h : m s = (.ok a, t)) :
    (m >>= k) s = k a t := by
  rw [bind_apply, h]

theorem bind_apply_error {m : Run α} {k : α → Run β} {s t : Store} {e : Halt}
    (h : m s = (.error e, t)) : (m >>= k) s = (.error e, t) := by
  rw [bind_apply, h]

theorem bind_eq_ok {m : Run α} {k : α → Run β} {s u : Store} {b : β}
    (h : (m >>= k) s = (.ok b, u)) : ∃ a t, m s = (.ok a, t) ∧ k a t = (.ok b, u) := by
  rw [bind_apply] at h
  split at h
  · rename_i a t hm
    exact ⟨a, t, hm, h⟩
  · cases h

theorem get_bind_apply (k : Store → Run α) (s : Store) : ((get : Run Store) >>= k) s = k s s :=
  rfl

end Run

mutual

/-- Taking up a form only makes new dishes. -/
theorem Form.exists_load {P : Store → Prop} (hP : ∀ s p, P s → P (s.newDish p).1) :
    ∀ (f : Form) {s : Store}, P s → ∃ v t, f.load s = (.ok v, t) ∧ P t
  | .number _, s, hs | .boolean _, s, hs | .text _, s, hs | .symbol _, s, hs =>
      ⟨_, s, rfl, hs⟩
  | .list fs, _, hs => by
      obtain ⟨vs, t, hload, ht⟩ := Form.exists_loadAll hP fs hs
      simp only [Form.load]
      exact ⟨.list vs, t, Run.bind_apply_ok hload, ht⟩
  | .dish p, s, hs => ⟨_, _, rfl, hP s p hs⟩

theorem Form.exists_loadAll {P : Store → Prop} (hP : ∀ s p, P s → P (s.newDish p).1) :
    ∀ (fs : List Form) {s : Store}, P s → ∃ vs t, Form.loadAll fs s = (.ok vs, t) ∧ P t
  | [], s, hs => ⟨[], s, rfl, hs⟩
  | f :: fs, _, hs => by
      obtain ⟨v, t, hv, ht⟩ := Form.exists_load hP f hs
      obtain ⟨vs, u, hvs, hu⟩ := Form.exists_loadAll hP fs ht
      refine ⟨v :: vs, u, ?_, hu⟩
      simp only [Form.loadAll]
      rw [Run.bind_apply_ok hv, Run.bind_apply_ok hvs]
      rfl

end

namespace Comparison

variable {α β γ δ : Type}

/-- Two runs that started in corresponding stores have ended in corresponding ones. -/
def Ends (C : Comparison) (i : C.Stage) (M : Matching) (R : Matching → α → β → Prop)
    (o : Except Halt α × Store) (o' : Except Halt β × Store) : Prop :=
  (C.lenient ∧ o.1 = .error .outOfFuel) ∨
    ∃ N, M ≤ N ∧ C.store i N o.2 o'.2 ∧ Corresponds (R N) o.1 o'.1

/-- Two runs correspond from all stores that do, as long as these know what `M` matches. -/
def Agrees (C : Comparison) (M : Matching) (R : Matching → α → β → Prop) (m : Run α) (m' : Run β) :
    Prop :=
  ∀ i N s t, M ≤ N → C.store i N s t → C.Ends i N R (m s) (m' t)

abbrev Val (C : Comparison) (M : Matching) : Value → Value → Prop :=
  Value.Agrees M C.allowed C.known

abbrev Vals (C : Comparison) (M : Matching) : List Value → List Value → Prop :=
  Value.AllAgree M C.allowed C.known

/-- Values that may be evaluated: they agree, and known names are all that they look up. -/
structure Code (C : Comparison) (M : Matching) (e e' : Value) : Prop where
  known : ∀ x ∈ e.lookups, C.known x
  val : C.Val M e e'

abbrev Codes (C : Comparison) (M : Matching) : List Value → List Value → Prop :=
  List.Forall₂ (C.Code M)

/-- Programs of any text may be run. -/
structure Open (C : Comparison) : Prop where
  writable : C.writable baseFrame
  known (x : Symbol) : C.known x

theorem open_of_reenters (C : Comparison) {f : Native} (hf : C.allowed f) (h : f.reenters = true) :
    C.Open :=
  ⟨C.writable_base hf h, C.known_all hf h⟩

abbrev Same (_ : Matching) (a b : α) : Prop := a = b

variable {C : Comparison} {M N : Matching} {R : Matching → α → β → Prop}
  {T : Matching → γ → δ → Prop} {m : Run α} {m' : Run β}

theorem Code.mono {e e' : Value} (hMN : M ≤ N) (he : C.Code M e e') : C.Code N e e' :=
  ⟨he.known, he.val.mono hMN⟩

theorem Codes.of_vals {vs ws : List Value} (hvs : C.Vals M vs ws)
    (hknown : ∀ x ∈ Value.lookupsAll vs, C.known x) : C.Codes M vs ws := by
  have hboth := (List.forall₂_and_left _ _).mpr
    ⟨fun v hv x hx => hknown x (Value.mem_lookupsAll.mpr ⟨v, hv, hx⟩), hvs⟩
  exact hboth.imp fun _ _ h => ⟨h.1, h.2⟩

theorem Ends.of_le {i : C.Stage} {o : Except Halt α × Store} {o' : Except Halt β × Store}
    (hMN : M ≤ N) (h : C.Ends i N R o o') : C.Ends i M R o o' := by
  rcases h with h | ⟨O, hNO, hstore, hcorr⟩
  · exact .inl h
  · exact .inr ⟨O, hMN.trans hNO, hstore, hcorr⟩

theorem Ends.matched (hstrict : ¬ C.lenient) {i : C.Stage} {o : Except Halt α × Store}
    {o' : Except Halt β × Store} (h : C.Ends i M R o o') :
    ∃ N, M ≤ N ∧ C.store i N o.2 o'.2 ∧ Corresponds (R N) o.1 o'.1 :=
  h.resolve_left fun hfuel => hstrict hfuel.1

theorem Agrees.mono (hMN : M ≤ N) (h : C.Agrees M R m m') : C.Agrees N R m m' :=
  fun i O s t hNO => h i O s t (hMN.trans hNO)

/-- What holds of all corresponding stores may be used to show that runs agree. -/
theorem Agrees.of_store (h : ∀ i N s t, M ≤ N → C.store i N s t → C.Agrees N R m m') :
    C.Agrees M R m m' :=
  fun i N s t hMN hst => h i N s t hMN hst i N s t le_rfl hst

/-- What is known of every answer of the first run may be added. -/
theorem Agrees.and_left {P : α → Prop} (h : C.Agrees M R m m')
    (hP : ∀ {s t a}, m s = (.ok a, t) → P a) :
    C.Agrees M (fun N a b => P a ∧ R N a b) m m' := by
  intro i N s t hMN hst
  rcases h i N s t hMN hst with hfuel | ⟨O, hNO, hst', hcorr⟩
  · exact .inl hfuel
  · refine .inr ⟨O, hNO, hst', ?_⟩
    have hanswer : ∀ a, (m s).1 = .ok a → P a := fun a ha => hP (Prod.ext ha rfl)
    revert hcorr hanswer
    generalize (m s).1 = r, (m' t).1 = r'
    rintro (hab | e) hanswer
    · exact .ok ⟨hanswer _ rfl, hab⟩
    · exact .error e

theorem Agrees.weaken {R' : Matching → α → β → Prop} (h : C.Agrees M R m m')
    (hR : ∀ N a b, M ≤ N → R N a b → R' N a b) : C.Agrees M R' m m' := by
  intro i N s t hMN hst
  rcases h i N s t hMN hst with hfuel | ⟨O, hNO, hst', hcorr⟩
  · exact .inl hfuel
  · exact .inr ⟨O, hNO, hst', hcorr.imp fun a b => hR O a b (hMN.trans hNO)⟩

theorem Ends.pure {i : C.Stage} {s t : Store} {a : α} {b : β} (hst : C.store i M s t)
    (h : R M a b) :
    C.Ends i M R ((Pure.pure a : Run α) s) ((Pure.pure b : Run β) t) :=
  .inr ⟨M, le_rfl, hst, .ok h⟩

theorem Agrees.pure {a : α} {b : β} (h : ∀ N, M ≤ N → R N a b) :
    C.Agrees M R (Pure.pure a) (Pure.pure b) :=
  fun _ N _ _ hMN hst => .pure hst (h N hMN)

theorem Agrees.raise (e : Error) : C.Agrees M R (Bakehouse.raise e) (Bakehouse.raise e) :=
  fun _ N _ _ _ hst => .inr ⟨N, le_rfl, hst, .error _⟩

theorem Ends.bind {i : C.Stage} {s t : Store} {k : α → Run γ} {k' : β → Run δ}
    (hm : C.Ends i M R (m s) (m' t))
    (hk : ∀ N a b s' t', M ≤ N → R N a b → C.store i N s' t' → C.Ends i N T (k a s') (k' b t')) :
    C.Ends i M T ((m >>= k) s) ((m' >>= k') t) := by
  rw [Run.bind_apply, Run.bind_apply]
  revert hm
  generalize m s = o, m' t = o'
  rcases o with ⟨r, s'⟩
  rcases o' with ⟨r', t'⟩
  rintro (⟨hlenient, hfuel⟩ | ⟨N, hMN, hst, hcorr⟩)
  · cases hfuel
    exact .inl ⟨hlenient, rfl⟩
  · cases hcorr with
    | ok hab => exact (hk N _ _ s' t' hMN hab hst).of_le hMN
    | error e => exact .inr ⟨N, hMN, hst, .error e⟩

theorem Agrees.bind {k : α → Run γ} {k' : β → Run δ} (hm : C.Agrees M R m m')
    (hk : ∀ N a b, M ≤ N → R N a b → C.Agrees N T (k a) (k' b)) :
    C.Agrees M T (m >>= k) (m' >>= k') := by
  intro i N s t hMN hst
  refine (hm i N s t hMN hst).bind ?_
  intro O a b s' t' hNO hab hst'
  exact hk O a b (hMN.trans hNO) hab i O s' t' le_rfl hst'

theorem Agrees.get_bind {k : Store → Run γ} {k' : Store → Run δ}
    (hk : ∀ i N s t, M ≤ N → C.store i N s t → C.Agrees N T (k s) (k' t)) :
    C.Agrees M T (get >>= k) (get >>= k') := by
  intro i N s t hMN hst
  exact hk i N s t hMN hst i N s t le_rfl hst

theorem Agrees.mapM {f : α → Run γ} {f' : β → Run δ} {S : α → β → Prop} {xs : List α} {ys : List β}
    (hT : ∀ {N O a b}, N ≤ O → T N a b → T O a b) (hxs : List.Forall₂ S xs ys)
    (hf : ∀ N a b, M ≤ N → S a b → C.Agrees N T (f a) (f' b)) :
    C.Agrees M (fun N => List.Forall₂ (T N)) (xs.mapM f) (ys.mapM f') := by
  induction hxs generalizing M with
  | nil =>
      simp only [List.mapM_nil]
      exact .pure fun _ _ => .nil
  | cons hab _ ih =>
      simp only [List.mapM_cons]
      refine (hf M _ _ le_rfl hab).bind fun N c d hMN hcd => ?_
      refine (ih fun O a b hNO => hf O a b (hMN.trans hNO)).bind fun O cs ds hNO hcds => ?_
      exact .pure fun P hOP =>
        .cons (hT (hNO.trans hOP) hcd) (hcds.imp fun _ _ h => hT hOP h)

theorem Agrees.forM {f : α → Run PUnit} {f' : β → Run PUnit} {S : α → β → Prop} {xs : List α}
    {ys : List β} (hxs : List.Forall₂ S xs ys)
    (hf : ∀ N a b, M ≤ N → S a b → C.Agrees N Same (f a) (f' b)) :
    C.Agrees M Same (xs.forM f) (ys.forM f') := by
  induction hxs generalizing M with
  | nil => exact .pure fun _ _ => rfl
  | cons hab _ ih =>
      refine Agrees.bind (hf M _ _ le_rfl hab) fun N _ _ hMN _ => ?_
      exact ih fun O a b hNO => hf O a b (hMN.trans hNO)

end Comparison

end Bakehouse
