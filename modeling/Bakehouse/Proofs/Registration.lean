import Bakehouse.Proofs.Bindings
import Bakehouse.Proofs.Comparison.Evaluator

namespace Bakehouse

def Store.installed (s : Store) (x : Symbol) (f : Native) : Store :=
  { s with
    scopes := s.scopes.define baseFrame x (.native s.fresh f)
    fresh := s.fresh + 1 }

theorem install_apply (x : Symbol) (f : Native) (s : Store) :
    install x f s = (.ok (), s.installed x f) := rfl

theorem Symbol.name_of_ofString? {name : String} {x : Symbol} (h : ofString? name = some x) :
    x.name = name := by
  unfold ofString? at h
  split at h
  · cases h
  · cases h
    rfl

/-- What survives the installation of every operation survives their registration, which may stop
half-way. -/
theorem registerFrom_induction {P : Store → Prop} {ops : List Operation}
    (hP : ∀ op ∈ ops, ∀ x, x.name = op.name → ∀ s, P s → P (s.installed x (.operation op)))
    (seen : List String) {s : Store} (hs : P s) : P (registerFrom seen ops s).2 := by
  induction ops generalizing seen s with
  | nil => exact hs
  | cons op ops ih =>
      simp only [List.forall_mem_cons] at hP
      simp only [registerFrom]
      split
      · exact hs
      · cases hx : Symbol.ofString? op.name with
        | none => exact hs
        | some x =>
            simp only
            rw [Run.bind_apply_ok (install_apply x (.operation op) s)]
            exact ih hP.2 _ (hP.1 x (Symbol.name_of_ofString? hx) s hs)

namespace Store

/-- The store of an interpreter before the catalog is registered. -/
def withBuiltins : Store :=
  Builtin.all.foldl (fun s b => s.installed b.symbol (.builtin b)) empty

theorem forM_install (bs : List Builtin) (s : Store) :
    bs.forM (fun b => install b.symbol (.builtin b)) s =
      (.ok (), bs.foldl (fun s b => s.installed b.symbol (.builtin b)) s) := by
  induction bs generalizing s with
  | nil => rfl
  | cons b bs ih => exact (Run.bind_apply_ok (install_apply b.symbol (.builtin b) s)).trans (ih _)

theorem initial_eq (characters : Pattern.CharacterNames) :
    initial characters =
      (registerFrom [] ((Catalog.all characters).map Catalog.operation) withBuiltins).2 := by
  rw [initial, installBase, Run.bind_apply_ok (forM_install Builtin.all empty)]
  rfl

theorem initial_induction {P : Store → Prop} (characters : Pattern.CharacterNames)
    (hP : ∀ op ∈ Catalog.all characters, ∀ x, x.name = op.name →
      ∀ s, P s → P (s.installed x (.operation op.operation)))
    (hs : P withBuiltins) : P (initial characters) := by
  rw [initial_eq]
  refine registerFrom_induction (fun op hop x hx => ?_) [] hs
  obtain ⟨entry, hentry, rfl⟩ := List.mem_map.mp hop
  exact hP entry hentry x hx

end Store

/-- The names of the catalog do not depend on the host. -/
theorem Catalog.map_name_all (characters : Pattern.CharacterNames) :
    (Catalog.all characters).map Catalog.name = (Catalog.all []).map Catalog.name := rfl

theorem Catalog.name_mem_of_mem_all {characters : Pattern.CharacterNames} {op : Catalog}
    (hop : op ∈ Catalog.all characters) : op.name ∈ (Catalog.all []).map Catalog.name :=
  map_name_all characters ▸ List.mem_map_of_mem hop

/-- No operation of the catalog has the name of a builtin. -/
theorem Store.own?_initial (characters : Pattern.CharacterNames) (b : Builtin) :
    (initial characters).scopes.own? baseFrame b.symbol =
      withBuiltins.scopes.own? baseFrame b.symbol := by
  have hnames : ∀ b ∈ Builtin.all, b.symbol.name ∉ (Catalog.all []).map Catalog.name := by
    decide +kernel
  let Kept (s : Store) : Prop :=
    s.scopes.own? baseFrame b.symbol = withBuiltins.scopes.own? baseFrame b.symbol
  have hstart : Kept withBuiltins := Eq.refl _
  refine initial_induction (P := Kept) characters (fun op hop x hx s hs => ?_) hstart
  have hne : x ≠ b.symbol := by
    rintro rfl
    exact hnames b (by cases b <;> decide) (hx ▸ Catalog.name_mem_of_mem_all hop)
  exact (Scopes.own?_define_of_ne _ _ hne _ _).trans hs

/-- A native function that runs no code and has one of the first `n` identities. -/
def Value.isPlainNative (n : Nat) : Value → Bool
  | .native id f => id < n && !f.reenters
  | _ => false

theorem Value.isPlainNative_succ {n : Nat} {v : Value} (h : v.isPlainNative n = true) :
    v.isPlainNative (n + 1) = true := by
  cases v with
  | native id f =>
      simp only [isPlainNative, Bool.and_eq_true, decide_eq_true_eq] at h ⊢
      exact ⟨by omega, h.2⟩
  | _ => cases h

/-- The base frame, in which nothing is bound but native functions that run no code. -/
def Store.Founded (s : Store) : Prop :=
  ∃ f, s.scopes.frames[baseFrame]? = some f ∧ f.outer = [] ∧
    ∀ b ∈ f.bindings, b.2.isPlainNative s.fresh = true

theorem Store.Founded.installed {s : Store} (hs : s.Founded) (x : Symbol) {f : Native}
    (hf : f.reenters = false) : (s.installed x f).Founded := by
  obtain ⟨frame, hframe, houter, hbindings⟩ := hs
  refine ⟨frame.define x (.native s.fresh f), ?_, by simpa using houter, fun b hb => ?_⟩
  · simp [Store.installed, Scopes.getElem?_define, hframe]
  · rcases Frame.mem_bindings_define hb with hb | rfl
    · exact Value.isPlainNative_succ (hbindings b hb)
    · simp [Store.installed, Value.isPlainNative, hf]

theorem Store.founded_initial (characters : Pattern.CharacterNames) :
    (initial characters).Founded := by
  refine initial_induction characters (fun op _ x _ s hs => hs.installed x rfl) ?_
  have hframe : (withBuiltins.scopes.frames[baseFrame]?).any (fun f => f.outer.isEmpty &&
      f.bindings.all (·.2.isPlainNative withBuiltins.fresh)) = true := by decide +kernel
  obtain ⟨f, hf, hplain⟩ := (Option.any_eq_true _ _).mp hframe
  simp only [Bool.and_eq_true, List.isEmpty_iff, List.all_eq_true] at hplain
  exact ⟨f, hf, hplain⟩

end Bakehouse
