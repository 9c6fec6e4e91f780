import Bakehouse.Proofs.Matching

namespace Bakehouse

/-- The native functions in the values that a frame binds. -/
def Frame.natives (f : Frame Value) : List Native :=
  f.bindings.flatMap fun b => b.2.natives

/-- The native functions in the values that are bound anywhere. -/
def Store.natives (s : Store) : List Native :=
  s.scopes.frames.toList.flatMap Frame.natives

theorem rel_imp {α β : Type} {R R' : α → β → Prop} (hR : ∀ a b, R a b → R' a b) {a : Option α}
    {b : Option β} (h : Option.Rel R a b) : Option.Rel R' a b := by
  cases h with
  | some hab => exact .some (hR _ _ hab)
  | none => exact .none

namespace Frame

variable {α : Type}

theorem mem_bindings_of_get? {f : Frame α} {x : Symbol} {v : α} (h : f.get? x = some v) :
    (x, v) ∈ f.bindings := by
  obtain ⟨l₁, l₂, hsplit, _⟩ := List.lookup_eq_some_iff.mp h
  simp [hsplit]

theorem mem_bindings_define {f : Frame α} {x : Symbol} {v : α} {b : Symbol × α}
    (h : b ∈ (f.define x v).bindings) : b ∈ f.bindings ∨ b = (x, v) := by
  unfold define at h
  split at h
  · obtain ⟨b', hb', rfl⟩ := List.mem_map.mp h
    split
    · exact .inr rfl
    · exact .inl hb'
  · simpa using h

@[simp] theorem define_outer (f : Frame α) (x : Symbol) (v : α) :
    (f.define x v).outer = f.outer := by
  unfold define
  split <;> rfl

theorem get?_define_self (f : Frame α) (x : Symbol) (v : α) : (f.define x v).get? x = some v := by
  unfold define
  split
  · rename_i hbinds
    simp only [binds, get?] at hbinds ⊢
    generalize f.bindings = bindings at hbinds ⊢
    induction bindings with
    | nil => simp at hbinds
    | cons b bindings ih =>
        obtain ⟨y, w⟩ := b
        by_cases hy : y = x
        · simp [hy]
        · have hxy : (x == y) = false := beq_eq_false_iff_ne.mpr (Ne.symm hy)
          simp only [List.map_cons, if_neg hy, List.lookup_cons, hxy] at hbinds ⊢
          exact ih hbinds
  · rename_i hbinds
    simp only [binds, get?, Option.isSome_iff_ne_none, ne_eq, not_not] at hbinds ⊢
    rw [List.lookup_append, hbinds]
    simp

theorem get?_define_of_ne (f : Frame α) {x y : Symbol} (hne : x ≠ y) (v : α) :
    (f.define x v).get? y = f.get? y := by
  have hyx : (y == x) = false := beq_eq_false_iff_ne.mpr (Ne.symm hne)
  unfold define
  split
  · simp only [get?]
    induction f.bindings with
    | nil => rfl
    | cons b bindings ih =>
        obtain ⟨z, w⟩ := b
        by_cases hz : z = x
        · subst hz
          simp only [List.map_cons, if_true, List.lookup_cons, hyx, ih]
        · simp only [List.map_cons, if_neg hz, List.lookup_cons, ih]
  · simp [get?, List.lookup_append, List.lookup_cons, hyx]

theorem define_of_notMem {bindings : List (Symbol × α)} {outer : List FrameId} {x : Symbol}
    (hx : x ∉ bindings.map (·.1)) (v : α) :
    (⟨bindings, outer⟩ : Frame α).define x v = ⟨bindings ++ [(x, v)], outer⟩ := by
  have hnone : bindings.lookup x = none := by
    rw [List.lookup_eq_none_iff]
    intro b hb
    rw [bne_iff_ne]
    rintro rfl
    exact hx (List.mem_map_of_mem hb)
  simp [define, binds, get?, hnone]

end Frame

namespace Scopes

variable {α : Type}

@[simp] theorem frames_push (s : Scopes α) (e : FrameId) :
    (s.push e).1.frames = s.frames.push ⟨[], s.chain e⟩ := rfl

theorem getElem?_define (s : Scopes α) (e : FrameId) (x : Symbol) (v : α) (i : FrameId) :
    (s.define e x v).frames[i]? =
      if e = i then (s.frames[i]?).map (·.define x v) else s.frames[i]? := by
  simp only [define, Array.getElem?_modify]

@[simp] theorem size_define (s : Scopes α) (e : FrameId) (x : Symbol) (v : α) :
    (s.define e x v).frames.size = s.frames.size := by
  simp [define]

@[simp] theorem chain_define (s : Scopes α) (e : FrameId) (x : Symbol) (v : α) (i : FrameId) :
    (s.define e x v).chain i = s.chain i := by
  simp only [chain, getElem?_define]
  by_cases he : e = i
  · rw [if_pos he]
    cases s.frames[i]? <;> simp
  · rw [if_neg he]

theorem own?_define_self (s : Scopes α) {e : FrameId} (he : e < s.frames.size) (x : Symbol)
    (v : α) : (s.define e x v).own? e x = some v := by
  simp only [own?, getElem?_define, if_true, Array.getElem?_eq_getElem he]
  exact Frame.get?_define_self _ x v

theorem own?_define_of_ne (s : Scopes α) (e : FrameId) {x y : Symbol} (hne : x ≠ y) (v : α)
    (i : FrameId) : (s.define e x v).own? i y = s.own? i y := by
  simp only [own?, getElem?_define]
  by_cases he : e = i
  · rw [if_pos he]
    cases s.frames[i]? with
    | none => rfl
    | some f => exact f.get?_define_of_ne hne v
  · rw [if_neg he]

theorem own?_define_of_not (s : Scopes α) {e i : FrameId} {x y : Symbol} (hne : ¬ (e = i ∧ x = y))
    (v : α) : (s.define e x v).own? i y = s.own? i y := by
  by_cases hx : x = y
  · simp only [own?, getElem?_define, if_neg fun he => hne ⟨he, hx⟩]
  · exact s.own?_define_of_ne e hx v i

theorem define_push (frames : Array (Frame α)) (g : Frame α) (x : Symbol) (v : α) :
    (⟨frames.push g⟩ : Scopes α).define frames.size x v = ⟨frames.push (g.define x v)⟩ := by
  refine congrArg Scopes.mk (Array.ext_getElem? fun i => ?_)
  rw [Array.getElem?_modify, Array.getElem?_push, Array.getElem?_push]
  by_cases hi : i = frames.size
  · simp [hi]
  · rw [if_neg (Ne.symm hi), if_neg hi, if_neg hi]

theorem lt_of_mem_chain {s : Scopes α} {i j : FrameId} (h : j ∈ s.chain i) : i < s.frames.size := by
  simp only [chain] at h
  split at h
  · rename_i hf
    exact (Array.getElem?_eq_some_iff.mp hf).1
  · simp at h

theorem chain_push {frames : Array (Frame α)} {i : FrameId} (g : Frame α) (hi : i < frames.size) :
    (⟨frames.push g⟩ : Scopes α).chain i = (⟨frames⟩ : Scopes α).chain i := by
  simp only [chain, Array.getElem?_push_lt hi, Array.getElem?_eq_getElem hi]

/-- Names are looked up alike along chains of frames that bind them alike. -/
theorem rel_lookup? {β : Type} {R : α → β → Prop} {F : FrameId → FrameId → Prop} {s : Scopes α}
    {t : Scopes β} {i j : FrameId} {x : Symbol} (hchain : List.Forall₂ F (s.chain i) (t.chain j))
    (hown : ∀ {k l}, F k l → Option.Rel R (s.own? k x) (t.own? l x)) :
    Option.Rel R (s.lookup? i x) (t.lookup? j x) := by
  simp only [lookup?]
  generalize s.chain i = is, t.chain j = js at hchain
  induction hchain with
  | nil => exact .none
  | @cons k l _ _ hframe _ ih =>
      simp only [List.findSome?_cons]
      have hframe := hown hframe
      revert hframe
      generalize s.own? k x = a, t.own? l x = b
      rintro (hvw | _)
      · exact .some hvw
      · exact ih

theorem exists_frame_of_lookup? {s : Scopes α} {e : FrameId} {x : Symbol} {v : α}
    (h : s.lookup? e x = some v) : ∃ f ∈ s.frames, (x, v) ∈ f.bindings := by
  obtain ⟨i, _, hi⟩ := List.exists_of_findSome?_eq_some h
  obtain ⟨f, hf, hv⟩ := Option.bind_eq_some_iff.mp hi
  exact ⟨f, Array.mem_of_getElem? hf, Frame.mem_bindings_of_get? hv⟩

end Scopes

namespace Store

theorem mem_natives {s : Store} {n : Native} :
    n ∈ s.natives ↔ ∃ f ∈ s.scopes.frames, ∃ b ∈ f.bindings, n ∈ b.2.natives := by
  simp [natives, Frame.natives]

theorem natives_of_lookup? {s : Store} {e : FrameId} {x : Symbol} {v : Value}
    (h : s.scopes.lookup? e x = some v) {n : Native} (hn : n ∈ v.natives) : n ∈ s.natives := by
  obtain ⟨f, hf, hb⟩ := Scopes.exists_frame_of_lookup? h
  exact mem_natives.mpr ⟨f, hf, _, hb, hn⟩

theorem natives_push {s : Store} {e : FrameId} {n : Native}
    (hn : n ∈ ({ s with scopes := (s.scopes.push e).1 } : Store).natives) : n ∈ s.natives := by
  obtain ⟨f, hf, b, hb, hnb⟩ := mem_natives.mp hn
  simp only [Scopes.frames_push, Array.mem_push] at hf
  rcases hf with hf | rfl
  · exact mem_natives.mpr ⟨f, hf, b, hb, hnb⟩
  · simp at hb

theorem natives_define {s : Store} {e : FrameId} {x : Symbol} {v : Value} {n : Native}
    (hn : n ∈ ({ s with scopes := s.scopes.define e x v } : Store).natives) :
    n ∈ s.natives ∨ n ∈ v.natives := by
  obtain ⟨f, hf, b, hb, hnb⟩ := mem_natives.mp hn
  obtain ⟨i, hi⟩ := Array.mem_iff_getElem?.mp hf
  rw [Scopes.getElem?_define] at hi
  split at hi
  · obtain ⟨f', hf', rfl⟩ := Option.map_eq_some_iff.mp hi
    rcases Frame.mem_bindings_define hb with hb' | rfl
    · exact .inl (mem_natives.mpr ⟨f', Array.mem_of_getElem? hf', b, hb', hnb⟩)
    · exact .inr hnb
  · exact .inl (mem_natives.mpr ⟨f, Array.mem_of_getElem? hi, b, hb, hnb⟩)

end Store

end Bakehouse
