import Mathlib.Data.List.Forall2

namespace Bakehouse

variable {ε α β : Type}

theorem exists_of_isOk {x : Except ε α} (h : x.isOk = true) : ∃ a, x = .ok a := by
  cases x with
  | error e => cases h
  | ok a => exact ⟨a, rfl⟩

theorem exists_of_map {x : Except ε α} {k : α → β} {b : β} (h : x.map k = .ok b) :
    ∃ a, x = .ok a ∧ k a = b := by
  cases x with
  | error e => cases h
  | ok a => exact ⟨a, rfl, Except.ok.inj h⟩

theorem error_of_map {x : Except ε α} {k : α → β} {e : ε} (h : x.map k = .error e) :
    x = .error e := by
  cases x with
  | error e' =>
      cases h
      rfl
  | ok a => cases h

variable {f : α → Except ε β} {x : α} {xs : List α}

theorem mapM_cons_eq_ok_iff {zs : List β} :
    (x :: xs).mapM f = .ok zs ↔ ∃ y ys, f x = .ok y ∧ xs.mapM f = .ok ys ∧ zs = y :: ys := by
  rw [List.mapM_cons]
  constructor
  · intro h
    cases hx : f x with
    | error e =>
        rw [hx] at h
        cases h
    | ok y =>
        cases hxs : xs.mapM f with
        | error e =>
            rw [hx, hxs] at h
            cases h
        | ok ys =>
            rw [hx, hxs] at h
            exact ⟨y, ys, rfl, rfl, (Except.ok.inj h).symm⟩
  · rintro ⟨y, ys, hx, hxs, rfl⟩
    rw [hx, hxs]
    rfl

theorem mapM_cons_eq_error_iff {e : ε} :
    (x :: xs).mapM f = .error e ↔
      f x = .error e ∨ (∃ y, f x = .ok y) ∧ xs.mapM f = .error e := by
  rw [List.mapM_cons]
  cases f x with
  | error e' =>
      change (Except.error e' : Except ε (List β)) = .error e ↔ _
      simp
  | ok y =>
      cases xs.mapM f with
      | error e' =>
          change (Except.error e' : Except ε (List β)) = .error e ↔ _
          simp
      | ok ys =>
          change Except.ok (y :: ys) = .error e ↔ _
          simp

theorem mapM_eq_ok_iff {R : α → β → Prop} (h : ∀ x ∈ xs, ∀ y, f x = .ok y ↔ R x y)
    {ys : List β} : xs.mapM f = .ok ys ↔ List.Forall₂ R xs ys := by
  induction xs generalizing ys with
  | nil =>
      rw [List.forall₂_nil_left_iff, List.mapM_nil]
      exact ⟨fun hys => (Except.ok.inj hys).symm, fun hys => hys ▸ rfl⟩
  | cons x xs ih =>
      obtain ⟨hhead, htail⟩ := List.forall_mem_cons.mp h
      rw [mapM_cons_eq_ok_iff, List.forall₂_cons_left_iff]
      simp only [hhead, ih htail, exists_and_left]

/-- It ends with the first failure, and what comes after makes no difference. -/
theorem mapM_eq_error_iff {e : ε} :
    xs.mapM f = .error e ↔ ∃ before x after, xs = before ++ x :: after ∧
      (∀ a ∈ before, ∃ b, f a = .ok b) ∧ f x = .error e := by
  induction xs with
  | nil => exact ⟨nofun, by rintro ⟨before, x, after, h, -⟩; simp at h⟩
  | cons x xs ih =>
      rw [mapM_cons_eq_error_iff, ih]
      constructor
      · rintro (hx | ⟨hx, before, y, after, rfl, hbefore, hy⟩)
        · exact ⟨[], x, xs, rfl, by simp, hx⟩
        · exact ⟨x :: before, y, after, rfl, List.forall_mem_cons.mpr ⟨hx, hbefore⟩, hy⟩
      · rintro ⟨_ | ⟨a, before⟩, y, after, h, hbefore, hy⟩
        · obtain ⟨rfl, rfl⟩ := List.cons.inj h
          exact .inl hy
        · obtain ⟨rfl, rfl⟩ := List.cons.inj h
          obtain ⟨hx, hbefore⟩ := List.forall_mem_cons.mp hbefore
          exact .inr ⟨hx, before, y, after, rfl, hbefore, hy⟩

theorem exists_mem_of_mapM {ys : List β} (h : xs.mapM f = .ok ys) (hx : x ∈ xs) :
    ∃ y ∈ ys, f x = .ok y := by
  induction xs generalizing ys with
  | nil => cases hx
  | cons z zs ih =>
      obtain ⟨y, us, hz, hzs, rfl⟩ := mapM_cons_eq_ok_iff.mp h
      rcases List.mem_cons.mp hx with rfl | hx
      · exact ⟨y, List.mem_cons_self, hz⟩
      · obtain ⟨u, hu, hfx⟩ := ih hzs hx
        exact ⟨u, List.mem_cons_of_mem y hu, hfx⟩

theorem map_eq_of_mapM {γ : Type} {g : β → γ} {k : α → γ} (hf : ∀ {x y}, f x = .ok y → g y = k x)
    {ys : List β} (h : xs.mapM f = .ok ys) : ys.map g = xs.map k := by
  induction xs generalizing ys with
  | nil =>
      cases h
      rfl
  | cons x xs ih =>
      obtain ⟨y, us, hx, hxs, rfl⟩ := mapM_cons_eq_ok_iff.mp h
      rw [List.map_cons, List.map_cons, hf hx, ih hxs]

theorem exists_forall₂_iff {R : α → β → Prop} :
    (∃ ys, List.Forall₂ R xs ys) ↔ ∀ x ∈ xs, ∃ y, R x y := by
  induction xs with
  | nil => exact ⟨fun _ => by simp, fun _ => ⟨[], .nil⟩⟩
  | cons x xs ih =>
      rw [List.forall_mem_cons, ← ih]
      constructor
      · rintro ⟨_, _ | ⟨hx, hxs⟩⟩
        exact ⟨⟨_, hx⟩, _, hxs⟩
      · rintro ⟨⟨y, hx⟩, ys, hxs⟩
        exact ⟨y :: ys, .cons hx hxs⟩

theorem exists_mapM_eq_ok_iff : (∃ ys, xs.mapM f = .ok ys) ↔ ∀ x ∈ xs, ∃ y, f x = .ok y := by
  rw [← exists_forall₂_iff]
  exact exists_congr fun _ => mapM_eq_ok_iff fun _ _ _ => Iff.rfl

end Bakehouse
