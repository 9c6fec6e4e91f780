import Bakehouse.Proofs.Invariant

/-!
Fuel. An answer does not depend on how much fuel there was, so evaluation can be followed without
counting it: a run finishes with an outcome if some amount of fuel leads there.
-/

namespace Bakehouse

def unconstrained : Invariant where
  Stage := Unit
  allowed _ := True
  writable _ := True
  holds _ _ := True
  configured _ _ := trivial
  writable_base _ _ := trivial
  congr _ _ _ := trivial
  push _ _ := ⟨trivial, trivial⟩
  define _ _ _ _ := trivial
  newDish _ _ := trivial
  payload _ _ _ := trivial
  borrow _ _ _ := ⟨(), trivial, fun _ => ⟨trivial, fun _ _ => trivial⟩⟩

/-- More fuel does not change how a run ends, unless it has run out of fuel. -/
def Steady {α : Type} (m : Nat → Run α) : Prop :=
  ∀ n n' s, n ≤ n' → (m n s).1 ≠ .error .outOfFuel → m n' s = m n s

theorem steady_evaluate (e : Value) (frame : FrameId) : Steady fun n => evaluate n e frame := by
  intro n n' s hle hfuel
  have hagrees := ((unconstrained.comparison True).agrees_evaluate_apply (.inr ⟨trivial, hle⟩)).1
    (M := .same) (Invariant.code_self (v := e) fun _ _ => trivial) (rfl : frame = frame) trivial
  rcases Invariant.eq_of_ends (hagrees () .same s s le_rfl ⟨rfl, rfl, trivial, fun _ _ => trivial⟩)
    with ⟨_, hout⟩ | heq
  · exact absurd hout hfuel
  · exact heq.symm

theorem steady_apply (f : Value) (args : List Value) (caller : FrameId) :
    Steady fun n => apply n f args caller := by
  intro n n' s hle hfuel
  have hargs : (unconstrained.comparison True).Vals .same args args :=
    Invariant.vals_self fun _ _ => trivial
  have hagrees := ((unconstrained.comparison True).agrees_evaluate_apply (.inr ⟨trivial, hle⟩)).2
    caller caller (Invariant.val_self (v := f) fun _ _ => trivial) hargs
  rcases Invariant.eq_of_ends (hagrees () .same s s le_rfl ⟨rfl, rfl, trivial, fun _ _ => trivial⟩)
    with ⟨_, hout⟩ | heq
  · exact absurd hout hfuel
  · exact heq.symm

namespace Steady

variable {α β : Type}

theorem const (m : Run α) : Steady fun _ => m :=
  fun _ _ _ _ _ => rfl

theorem bind {m : Nat → Run α} {k : Nat → α → Run β} (hm : Steady m)
    (hk : ∀ a, Steady fun n => k n a) : Steady fun n => m n >>= k n := by
  intro n n' s hle hfuel
  simp only [Run.bind_apply] at hfuel ⊢
  have hsame := hm n n' s hle
  cases hfirst : m n s with
  | mk r t =>
      rw [hfirst] at hfuel hsame
      cases r with
      | ok a =>
          rw [hsame nofun]
          exact hk a n n' t hle hfuel
      | error e =>
          have hfailed : (Except.error e : Except Halt α) ≠ .error .outOfFuel :=
            fun h => hfuel (by rw [Except.error.inj h])
          rw [hsame hfailed]

theorem mapM {f : Nat → α → Run β} (hf : ∀ a, Steady fun n => f n a) (xs : List α) :
    Steady fun n => xs.mapM (f n) := by
  induction xs with
  | nil => exact const _
  | cons x xs ih =>
      simp only [List.mapM_cons]
      exact (hf x).bind fun _ => ih.bind fun _ => const _

theorem foldrM {f : Nat → α → β → Run β} (hf : ∀ a b, Steady fun n => f n a b) (b : β)
    (xs : List α) : Steady fun n => xs.foldrM (f n) b := by
  induction xs with
  | nil => exact const _
  | cons x xs ih =>
      simp only [List.foldrM_cons]
      exact ih.bind fun b => hf x b

end Steady

/-- With enough fuel the run ends with this outcome. -/
def Finishes {α : Type} (m : Nat → Run α) (s : Store) (o : Except Halt α × Store) : Prop :=
  o.1 ≠ .error .outOfFuel ∧ ∃ n, m n s = o

namespace Finishes

variable {α β : Type} {m : Nat → Run α} {k : Nat → α → Run β} {s t : Store}
  {o : Except Halt α × Store} {r : Except Halt β × Store}

theorem unique (hm : Steady m) {o' : Except Halt α × Store} (h : Finishes m s o)
    (h' : Finishes m s o') : o = o' := by
  obtain ⟨hfuel, n, rfl⟩ := h
  obtain ⟨hfuel', n', rfl⟩ := h'
  rcases Nat.le_total n n' with hle | hle
  · exact (hm n n' s hle hfuel).symm
  · exact hm n' n s hle hfuel'

theorem eventually (hm : Steady m) (h : Finishes m s o) : ∃ n, ∀ n' ≥ n, m n' s = o := by
  obtain ⟨hfuel, n, rfl⟩ := h
  exact ⟨n, fun n' hle => hm n n' s hle hfuel⟩

theorem of_bind_ok (hm : Steady m) (hk : ∀ a, Steady fun n => k n a) {a : α}
    (h : Finishes m s (.ok a, t)) (h' : Finishes (fun n => k n a) t r) :
    Finishes (fun n => m n >>= k n) s r := by
  obtain ⟨n, hn⟩ := h.eventually hm
  obtain ⟨n', hn'⟩ := h'.eventually (hk a)
  refine ⟨h'.1, max n n', ?_⟩
  simp only
  rw [Run.bind_apply_ok (hn _ (Nat.le_max_left n n')), hn' _ (Nat.le_max_right n n')]

theorem of_bind_error {e : Halt} (h : Finishes m s (.error e, t)) :
    Finishes (fun n => m n >>= k n) s (.error e, t) := by
  obtain ⟨hfuel, n, hn⟩ := h
  have he : e ≠ .outOfFuel := fun he => hfuel (congrArg Except.error he)
  refine ⟨fun h => he (Except.error.inj h), n, ?_⟩
  exact Run.bind_apply_error hn

theorem bind_cases (h : Finishes (fun n => m n >>= k n) s r) :
    (∃ a t, Finishes m s (.ok a, t) ∧ Finishes (fun n => k n a) t r) ∨
      ∃ e t, Finishes m s (.error e, t) ∧ r = (.error e, t) := by
  obtain ⟨hfuel, n, rfl⟩ := h
  simp only [Run.bind_apply] at hfuel ⊢
  cases hfirst : m n s with
  | mk r t =>
      rw [hfirst] at hfuel
      cases r with
      | ok a => exact .inl ⟨a, t, ⟨nofun, n, hfirst⟩, hfuel, n, rfl⟩
      | error e =>
          exact .inr ⟨e, t, ⟨fun h => hfuel (by rw [Except.error.inj h]), n, hfirst⟩, rfl⟩

/-- What is known to finish can be taken out of a run. -/
theorem bind_iff (hm : Steady m) (hk : ∀ a, Steady fun n => k n a) {a : α}
    (h : Finishes m s (.ok a, t)) :
    Finishes (fun n => m n >>= k n) s r ↔ Finishes (fun n => k n a) t r := by
  refine ⟨fun hboth => ?_, h.of_bind_ok hm hk⟩
  rcases hboth.bind_cases with ⟨b, u, hfirst, hsecond⟩ | ⟨e, u, hfirst, _⟩
  · cases hfirst.unique hm h
    exact hsecond
  · cases hfirst.unique hm h

theorem const (m : Run α) (s : Store) (h : (m s).1 ≠ .error .outOfFuel) :
    Finishes (fun _ => m) s (m s) :=
  ⟨h, 0, rfl⟩

end Finishes

namespace Comparison

variable {α β γ δ : Type} {C : Comparison} {i : C.Stage} {M : Matching}
  {R : Matching → α → β → Prop} {T : Matching → γ → δ → Prop} {m : Nat → Run α} {m' : Nat → Run β}
  {s t : Store}

/-- When one of two runs finishes, so does the other, and they end in corresponding ways. -/
def FinishAlike (C : Comparison) (i : C.Stage) (M : Matching) (R : Matching → α → β → Prop)
    (m : Nat → Run α) (s : Store) (m' : Nat → Run β) (t : Store) : Prop :=
  (∀ o, Finishes m s o → ∃ o', Finishes m' t o' ∧ C.Ends i M R o o') ∧
    ∀ o', Finishes m' t o' → ∃ o, Finishes m s o ∧ C.Ends i M R o o'

theorem FinishAlike.of_ends (hstrict : ¬ C.lenient) (h : ∀ n, C.Ends i M R (m n s) (m' n t)) :
    C.FinishAlike i M R m s m' t := by
  have hiff (n : Nat) : (m n s).1 = .error .outOfFuel ↔ (m' n t).1 = .error .outOfFuel := by
    obtain ⟨N, _, _, hcorr⟩ := (h n).matched hstrict
    exact hcorr.error_iff _
  constructor
  · rintro _ ⟨hfuel, n, rfl⟩
    exact ⟨m' n t, ⟨fun hout => hfuel ((hiff n).mpr hout), n, rfl⟩, h n⟩
  · rintro _ ⟨hfuel, n, rfl⟩
    exact ⟨m n s, ⟨fun hout => hfuel ((hiff n).mp hout), n, rfl⟩, h n⟩

/-- Runs in two parts: the first parts finish alike, and after them so do the second ones. -/
theorem FinishAlike.bind (hstrict : ¬ C.lenient) {k : Nat → α → Run γ} {k' : Nat → β → Run δ}
    (hm : Steady m) (hm' : Steady m') (hk : ∀ a, Steady fun n => k n a)
    (hk' : ∀ b, Steady fun n => k' n b) (hfirst : C.FinishAlike i M R m s m' t)
    (hsecond : ∀ N a b s' t', M ≤ N → R N a b → C.store i N s' t' → Finishes m' t (.ok b, t') →
      C.FinishAlike i N T (fun n => k n a) s' (fun n => k' n b) t') :
    C.FinishAlike i M T (fun n => m n >>= k n) s (fun n => m' n >>= k' n) t := by
  constructor
  · intro o ho
    rcases ho.bind_cases with ⟨a, s', hok, hrest⟩ | ⟨e, s', herror, rfl⟩
    · obtain ⟨⟨r, t'⟩, hfin, hends⟩ := hfirst.1 _ hok
      obtain ⟨N, hMN, hst, hcorr⟩ := hends.matched hstrict
      cases hcorr with
      | ok hab =>
          obtain ⟨o', hfin', hends'⟩ := (hsecond N a _ s' t' hMN hab hst hfin).1 o hrest
          exact ⟨o', hfin.of_bind_ok hm' hk' hfin', hends'.of_le hMN⟩
    · obtain ⟨⟨r, t'⟩, hfin, hends⟩ := hfirst.1 _ herror
      obtain ⟨N, hMN, hst, hcorr⟩ := hends.matched hstrict
      cases hcorr with
      | error e => exact ⟨_, hfin.of_bind_error, .inr ⟨N, hMN, hst, .error e⟩⟩
  · intro o' ho'
    rcases ho'.bind_cases with ⟨b, t', hok, hrest⟩ | ⟨e, t', herror, rfl⟩
    · obtain ⟨⟨r, s'⟩, hfin, hends⟩ := hfirst.2 _ hok
      obtain ⟨N, hMN, hst, hcorr⟩ := hends.matched hstrict
      cases hcorr with
      | ok hab =>
          obtain ⟨o, hfin', hends'⟩ := (hsecond N _ b s' t' hMN hab hst hok).2 o' hrest
          exact ⟨o, hfin.of_bind_ok hm hk hfin', hends'.of_le hMN⟩
    · obtain ⟨⟨r, s'⟩, hfin, hends⟩ := hfirst.2 _ herror
      obtain ⟨N, hMN, hst, hcorr⟩ := hends.matched hstrict
      cases hcorr with
      | error e => exact ⟨_, hfin.of_bind_error, .inr ⟨N, hMN, hst, .error e⟩⟩

theorem FinishAlike.of_finishes (hm : Steady m) (hm' : Steady m') {o : Except Halt α × Store}
    {o' : Except Halt β × Store} (h : Finishes m s o) (h' : Finishes m' t o')
    (hends : C.Ends i M R o o') : C.FinishAlike i M R m s m' t := by
  constructor
  · intro p hp
    cases hp.unique hm h
    exact ⟨o', h', hends⟩
  · intro p hp
    cases hp.unique hm' h'
    exact ⟨o, h, hends⟩

theorem FinishAlike.congr_right {m'' : Nat → Run β} {t' : Store}
    (hiff : ∀ o, Finishes m'' t' o ↔ Finishes m' t o) (h : C.FinishAlike i M R m s m' t) :
    C.FinishAlike i M R m s m'' t' := by
  simp only [FinishAlike, hiff]
  exact h

end Comparison

end Bakehouse
