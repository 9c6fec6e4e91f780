import Bakehouse.Proofs.Bindings
import Bakehouse.Proofs.Comparison.Evaluator

/-!
Stores that differ in what hidden names are bound to. The known names are bound alike in them, and
frames, dishes and functions may have other numbers. No code that looks up known names only can tell
such stores apart.
-/

namespace Bakehouse

/-- No number stands for two others, on either side. -/
def OneToOne (r : Nat → Nat → Prop) : Prop :=
  ∀ a a' b b', r a a' → r b b' → (a = b ↔ a' = b')

/-- The relation with one more pair. -/
def extended (r : Nat → Nat → Prop) (m n : Nat) : Nat → Nat → Prop :=
  fun a b => r a b ∨ a = m ∧ b = n

theorem OneToOne.extended {r : Nat → Nat → Prop} (h : OneToOne r) {m n : Nat}
    (hlt : ∀ {a b}, r a b → a < m ∧ b < n) : OneToOne (extended r m n) := by
  intro a a' b b' ha hb
  rcases ha with ha | ⟨rfl, rfl⟩
  · rcases hb with hb | ⟨rfl, rfl⟩
    · exact h a a' b b' ha hb
    · have := hlt ha
      omega
  · rcases hb with hb | ⟨rfl, rfl⟩
    · have := hlt hb
      omega
    · simp

section Definitions

variable (known : Symbol → Prop) (M : Matching)

/-- Values that agree wherever known names are all that is looked up and no operation runs code. -/
abbrev Value.Hidden : Value → Value → Prop :=
  Value.Agrees M (fun f => f.reenters = false) known

/-- Frames that bind the known names to agreeing values inside matching frames. -/
structure Frame.Hidden (f g : Frame Value) : Prop where
  get? {x : Symbol} : known x → Option.Rel (Value.Hidden known M) (f.get? x) (g.get? x)
  outer : List.Forall₂ M.frame f.outer g.outer

/-- The stores differ only in what names are bound to that are not known, and in numbers. -/
structure Store.Hidden (s t : Store) : Prop where
  output_eq : s.output = t.output
  base : M.frame baseFrame baseFrame
  frames {i j : FrameId} : M.frame i j → ∃ f g, s.scopes.frames[i]? = some f ∧
    t.scopes.frames[j]? = some g ∧ Frame.Hidden known M f g
  cells {h k : Handle} : M.handle h k → ∃ c, s.cells[h]? = some c ∧ t.cells[k]? = some c
  fresh {a b : Nat} : M.identity a b → a < s.fresh ∧ b < t.fresh
  oneFrame : OneToOne M.frame
  oneHandle : OneToOne M.handle
  oneIdentity : OneToOne M.identity

end Definitions

variable {known : Symbol → Prop} {M N : Matching}

namespace Frame.Hidden

variable {f g : Frame Value}

theorem mono (hMN : M ≤ N) (h : Frame.Hidden known M f g) : Frame.Hidden known N f g where
  get? hx := rel_imp (fun _ _ hvw => hvw.mono hMN) (h.get? hx)
  outer := h.outer.imp fun _ _ => hMN.frame

theorem define (h : Frame.Hidden known M f g) (x : Symbol) {v w : Value}
    (hvw : Value.Hidden known M v w) : Frame.Hidden known M (f.define x v) (g.define x w) where
  get? {y} hy := by
    by_cases hxy : x = y
    · subst hxy
      rw [Frame.get?_define_self, Frame.get?_define_self]
      exact .some hvw
    · rw [Frame.get?_define_of_ne _ hxy, Frame.get?_define_of_ne _ hxy]
      exact h.get? hy
  outer := by simpa using h.outer

/-- A hidden name may be bound on one side alone. -/
theorem define_left (h : Frame.Hidden known M f g) {x : Symbol} (hx : ¬ known x) (v : Value) :
    Frame.Hidden known M (f.define x v) g where
  get? {y} hy := by
    have hxy : x ≠ y := by
      rintro rfl
      exact hx hy
    rw [Frame.get?_define_of_ne _ hxy]
    exact h.get? hy
  outer := by simpa using h.outer

end Frame.Hidden

namespace Store.Hidden

variable {s t : Store} {i j : FrameId} {h k : Handle}

theorem lt_frames (hst : Store.Hidden known M s t) (hij : M.frame i j) :
    i < s.scopes.frames.size ∧ j < t.scopes.frames.size := by
  obtain ⟨f, g, hf, hg, _⟩ := hst.frames hij
  exact ⟨(Array.getElem?_eq_some_iff.mp hf).1, (Array.getElem?_eq_some_iff.mp hg).1⟩

theorem lt_cells (hst : Store.Hidden known M s t) (hk : M.handle h k) :
    h < s.cells.size ∧ k < t.cells.size := by
  obtain ⟨c, hs, ht⟩ := hst.cells hk
  exact ⟨(Array.getElem?_eq_some_iff.mp hs).1, (Array.getElem?_eq_some_iff.mp ht).1⟩

theorem chain (hst : Store.Hidden known M s t) (hij : M.frame i j) :
    List.Forall₂ M.frame (s.scopes.chain i) (t.scopes.chain j) := by
  obtain ⟨f, g, hf, hg, hfg⟩ := hst.frames hij
  simp only [Scopes.chain, hf, hg]
  exact .cons hij hfg.outer

theorem lookup? (hst : Store.Hidden known M s t) (hij : M.frame i j) {x : Symbol} (hx : known x) :
    Option.Rel (Value.Hidden known M) (s.scopes.lookup? i x) (t.scopes.lookup? j x) := by
  refine Scopes.rel_lookup? (hst.chain hij) fun hkl => ?_
  obtain ⟨f, g, hf, hg, hfg⟩ := hst.frames hkl
  simp only [Scopes.own?, hf, hg]
  exact hfg.get? hx

theorem newIdentity (hst : Store.Hidden known M s t) :
    ∃ N, M ≤ N ∧ N.identity s.fresh t.fresh ∧
      Store.Hidden known N { s with fresh := s.fresh + 1 } { t with fresh := t.fresh + 1 } := by
  have hMN : M ≤ { M with identity := extended M.identity s.fresh t.fresh } := ⟨id, id, .inl⟩
  refine ⟨_, hMN, .inr ⟨rfl, rfl⟩, ?_⟩
  exact {
    output_eq := hst.output_eq
    base := hst.base
    frames := fun hij => by
      obtain ⟨f, g, hf, hg, hfg⟩ := hst.frames hij
      exact ⟨f, g, hf, hg, hfg.mono hMN⟩
    cells := hst.cells
    fresh := by
      rintro a b (hab | ⟨rfl, rfl⟩)
      · have := hst.fresh hab
        constructor <;> simp only <;> omega
      · exact ⟨Nat.lt_succ_self _, Nat.lt_succ_self _⟩
    oneFrame := hst.oneFrame
    oneHandle := hst.oneHandle
    oneIdentity := hst.oneIdentity.extended hst.fresh
  }

theorem newDish (hst : Store.Hidden known M s t) (p : Payload) :
    ∃ N, M ≤ N ∧ N.handle s.cells.size t.cells.size ∧
      Store.Hidden known N (s.newDish p).1 (t.newDish p).1 := by
  have hMN : M ≤ { M with handle := extended M.handle s.cells.size t.cells.size } :=
    ⟨id, .inl, id⟩
  refine ⟨_, hMN, .inr ⟨rfl, rfl⟩, ?_⟩
  exact {
    output_eq := hst.output_eq
    base := hst.base
    frames := fun hij => by
      obtain ⟨f, g, hf, hg, hfg⟩ := hst.frames hij
      exact ⟨f, g, hf, hg, hfg.mono hMN⟩
    cells := by
      rintro h k (hk | ⟨rfl, rfl⟩)
      · obtain ⟨c, hs, ht⟩ := hst.cells hk
        obtain ⟨hh, hk⟩ := hst.lt_cells hk
        refine ⟨c, ?_, ?_⟩
        · rw [Store.newDish, Array.getElem?_push_lt hh, ← Array.getElem?_eq_getElem hh, hs]
        · rw [Store.newDish, Array.getElem?_push_lt hk, ← Array.getElem?_eq_getElem hk, ht]
      · exact ⟨⟨.good p, false⟩, Array.getElem?_push_size, Array.getElem?_push_size⟩
    fresh := hst.fresh
    oneFrame := hst.oneFrame
    oneHandle := hst.oneHandle.extended hst.lt_cells
    oneIdentity := hst.oneIdentity
  }

theorem push (hst : Store.Hidden known M s t) (hij : M.frame i j) :
    ∃ N, M ≤ N ∧ N.frame s.scopes.frames.size t.scopes.frames.size ∧
      Store.Hidden known N { s with scopes := (s.scopes.push i).1 }
        { t with scopes := (t.scopes.push j).1 } := by
  have hMN : M ≤ { M with
      frame := extended M.frame s.scopes.frames.size t.scopes.frames.size } :=
    ⟨.inl, id, id⟩
  refine ⟨_, hMN, .inr ⟨rfl, rfl⟩, ?_⟩
  exact {
    output_eq := hst.output_eq
    base := .inl hst.base
    frames := by
      rintro k l (hkl | ⟨rfl, rfl⟩)
      · obtain ⟨f, g, hf, hg, hfg⟩ := hst.frames hkl
        obtain ⟨hk, hl⟩ := hst.lt_frames hkl
        refine ⟨f, g, ?_, ?_, hfg.mono hMN⟩
        · rw [Scopes.frames_push, Array.getElem?_push_lt hk, ← Array.getElem?_eq_getElem hk, hf]
        · rw [Scopes.frames_push, Array.getElem?_push_lt hl, ← Array.getElem?_eq_getElem hl, hg]
      · refine ⟨⟨[], s.scopes.chain i⟩, ⟨[], t.scopes.chain j⟩, ?_, ?_, fun _ => .none, ?_⟩
        · rw [Scopes.frames_push, Array.getElem?_push_size]
        · rw [Scopes.frames_push, Array.getElem?_push_size]
        · exact (hst.chain hij).imp fun _ _ => hMN.frame
    cells := hst.cells
    fresh := hst.fresh
    oneFrame := hst.oneFrame.extended hst.lt_frames
    oneHandle := hst.oneHandle
    oneIdentity := hst.oneIdentity
  }

theorem define (hst : Store.Hidden known M s t) (hij : M.frame i j) (x : Symbol) {v w : Value}
    (hvw : Value.Hidden known M v w) :
    Store.Hidden known M { s with scopes := s.scopes.define i x v }
      { t with scopes := t.scopes.define j x w } where
  output_eq := hst.output_eq
  base := hst.base
  frames {k l} hkl := by
    obtain ⟨f, g, hf, hg, hfg⟩ := hst.frames hkl
    simp only [Scopes.getElem?_define, hf, hg, hst.oneFrame _ _ _ _ hij hkl]
    split
    · exact ⟨_, _, rfl, rfl, hfg.define x hvw⟩
    · exact ⟨f, g, rfl, rfl, hfg⟩
  cells := hst.cells
  fresh := hst.fresh
  oneFrame := hst.oneFrame
  oneHandle := hst.oneHandle
  oneIdentity := hst.oneIdentity

theorem modifyCell (hst : Store.Hidden known M s t) (hk : M.handle h k) (f : Cell → Cell) :
    Store.Hidden known M { s with cells := s.cells.modify h f }
      { t with cells := t.cells.modify k f } where
  output_eq := hst.output_eq
  base := hst.base
  frames := hst.frames
  cells {h' k'} hk' := by
    obtain ⟨c, hs, ht⟩ := hst.cells hk'
    simp only [Array.getElem?_modify, hs, ht, hst.oneHandle _ _ _ _ hk hk']
    split
    · exact ⟨_, rfl, rfl⟩
    · exact ⟨c, rfl, rfl⟩
  fresh := hst.fresh
  oneFrame := hst.oneFrame
  oneHandle := hst.oneHandle
  oneIdentity := hst.oneIdentity

end Store.Hidden

/-- Stores in which names that are not known are bound to anything. -/
def uptoHidden (known : Symbol → Prop) : Comparison where
  Stage := Unit
  lenient := False
  allowed f := f.reenters = false
  writable _ := True
  known := known
  store _ := Store.Hidden known
  configured _ hop := hop
  writable_base _ _ := trivial
  known_all hf hreenters := by
    rw [hf] at hreenters
    cases hreenters
  frame_base hst := hst.base
  dish_eq hst hk := by
    obtain ⟨c, hs, ht⟩ := hst.cells hk
    simp only [Store.dish, hs, ht]
  borrowed_eq hst hk := by
    obtain ⟨c, hs, ht⟩ := hst.cells hk
    simp only [Store.isBorrowed, hs, ht]
  identity_iff hst ha hb := hst.oneIdentity _ _ _ _ ha hb
  store_lookup hst he hx := hst.lookup? he hx
  store_newIdentity hst := hst.newIdentity
  store_write text hst := { hst with output_eq := congrArg (· ++ text) hst.output_eq }
  store_newDish p hst := hst.newDish p
  store_push hst he := by
    obtain ⟨N, hMN, hnew, hst'⟩ := hst.push he
    exact ⟨N, hMN, hnew, trivial, hst'⟩
  store_define x _ _ hst he _ hvw := hst.define he x hvw
  store_payload q hst hk _ := hst.modifyCell hk _
  store_borrow hst hk _ _ := by
    refine ⟨(), hst.modifyCell hk _, fun hMN hst' => ⟨hst'.modifyCell (hMN.handle hk) _, fun _ _ => ?_⟩⟩
    exact (hst'.modifyCell (hMN.handle hk) _).modifyCell (hMN.handle hk) _

end Bakehouse
