import Bakehouse.Proofs.Fuel
import Bakehouse.Proofs.ScopeSafety

namespace Bakehouse

/-- Frames that bind the same names to matching values inside matching frames. -/
structure Frame.Matches (allowed : Native → Prop) (M : Matching) (f g : Frame Value) : Prop where
  bindings : List.Forall₂ (fun b c => b.1 = c.1 ∧ Value.Matches M allowed b.2 c.2) f.bindings
    g.bindings
  outer : List.Forall₂ M.frame f.outer g.outer

/-- The second store is the first one up to the numbers of frames and to frames of its own. -/
structure Renamed (allowed : Native → Prop) (M : Matching) (s t : Store) : Prop where
  cells_eq : s.cells = t.cells
  fresh_eq : s.fresh = t.fresh
  output_eq : s.output = t.output
  handle : M.handle = Eq
  identity : M.identity = Eq
  base : M.frame baseFrame baseFrame
  base_chain : s.scopes.chain baseFrame = [baseFrame]
  injective {i i' j : FrameId} : M.frame i j → M.frame i' j → i = i'
  functional {i j j' : FrameId} : M.frame i j → M.frame i j' → j = j'
  total {i : FrameId} : i < s.scopes.frames.size → ∃ j, M.frame i j
  frames {i j : FrameId} : M.frame i j → ∃ f g, s.scopes.frames[i]? = some f ∧
    t.scopes.frames[j]? = some g ∧ f.Matches allowed M g

variable {allowed : Native → Prop} {M N : Matching}

namespace Frame.Matches

variable {f g : Frame Value}

theorem mono (hMN : M ≤ N) (h : f.Matches allowed M g) : f.Matches allowed N g where
  bindings := h.bindings.imp fun _ _ hb => ⟨hb.1, hb.2.mono hMN⟩
  outer := h.outer.imp fun _ _ => hMN.frame

theorem get? (h : f.Matches allowed M g) (x : Symbol) :
    Option.Rel (Value.Matches M allowed) (f.get? x) (g.get? x) := by
  obtain ⟨bs, fouter⟩ := f
  obtain ⟨cs, gouter⟩ := g
  have hbindings := h.bindings
  simp only [Frame.get?] at hbindings ⊢
  clear h
  induction hbindings with
  | nil => exact .none
  | @cons b c bs cs hb _ ih =>
      obtain ⟨y, v⟩ := b
      obtain ⟨z, w⟩ := c
      obtain ⟨rfl, hvw⟩ := hb
      simp only [List.lookup_cons]
      split
      · exact .some hvw
      · exact ih

theorem define (h : f.Matches allowed M g) (x : Symbol) {v w : Value}
    (hvw : Value.Matches M allowed v w) : (f.define x v).Matches allowed M (g.define x w) := by
  have hbinds : f.binds x = g.binds x := by
    have hget := h.get? x
    simp only [Frame.binds]
    revert hget
    generalize f.get? x = a, g.get? x = b
    rintro (_ | _) <;> rfl
  refine ⟨?_, by simpa using h.outer⟩
  simp only [Frame.define, hbinds]
  split
  · refine List.forall₂_map_left_iff.mpr (List.forall₂_map_right_iff.mpr ?_)
    refine h.bindings.imp fun b c hb => ?_
    rw [← hb.1]
    split
    · exact ⟨rfl, hvw⟩
    · exact hb
  · exact List.rel_append h.bindings (.cons ⟨rfl, hvw⟩ .nil)

end Frame.Matches

namespace Renamed

variable {s t : Store}

theorem lt_left (h : Renamed allowed M s t) {i j : FrameId} (hij : M.frame i j) :
    i < s.scopes.frames.size := by
  obtain ⟨f, _, hf, _⟩ := h.frames hij
  exact (Array.getElem?_eq_some_iff.mp hf).1

theorem lt_right (h : Renamed allowed M s t) {i j : FrameId} (hij : M.frame i j) :
    j < t.scopes.frames.size := by
  obtain ⟨_, g, _, hg, _⟩ := h.frames hij
  exact (Array.getElem?_eq_some_iff.mp hg).1

theorem chain (h : Renamed allowed M s t) {i j : FrameId} (hij : M.frame i j) :
    List.Forall₂ M.frame (s.scopes.chain i) (t.scopes.chain j) := by
  obtain ⟨f, g, hf, hg, hfg⟩ := h.frames hij
  simp only [Scopes.chain, hf, hg]
  exact .cons hij hfg.outer

theorem own? (h : Renamed allowed M s t) {i j : FrameId} (hij : M.frame i j) (x : Symbol) :
    Option.Rel (Value.Matches M allowed) (s.scopes.own? i x) (t.scopes.own? j x) := by
  obtain ⟨f, g, hf, hg, hfg⟩ := h.frames hij
  simp only [Scopes.own?, hf, hg]
  exact hfg.get? x

theorem lookup? (h : Renamed allowed M s t) {i j : FrameId} (hij : M.frame i j) (x : Symbol) :
    Option.Rel (Value.Matches M allowed) (s.scopes.lookup? i x) (t.scopes.lookup? j x) :=
  Scopes.rel_lookup? (h.chain hij) fun hkl => h.own? hkl x

theorem congr (h : Renamed allowed M s t) {s' t' : Store} (hs : s'.scopes = s.scopes)
    (ht : t'.scopes = t.scopes) (hcells : s'.cells = t'.cells) (hfresh : s'.fresh = t'.fresh)
    (houtput : s'.output = t'.output) : Renamed allowed M s' t' where
  cells_eq := hcells
  fresh_eq := hfresh
  output_eq := houtput
  handle := h.handle
  identity := h.identity
  base := h.base
  base_chain := by rw [hs, h.base_chain]
  injective := h.injective
  functional := h.functional
  total := by
    rw [hs]
    exact h.total
  frames := by
    rw [hs, ht]
    exact h.frames

theorem define (h : Renamed allowed M s t) {i j : FrameId} (hij : M.frame i j) (x : Symbol)
    {v w : Value} (hvw : Value.Matches M allowed v w) :
    Renamed allowed M { s with scopes := s.scopes.define i x v }
      { t with scopes := t.scopes.define j x w } where
  cells_eq := h.cells_eq
  fresh_eq := h.fresh_eq
  output_eq := h.output_eq
  handle := h.handle
  identity := h.identity
  base := h.base
  base_chain := by
    rw [Scopes.chain_define, h.base_chain]
  injective := h.injective
  functional := h.functional
  total hlt := by
    rw [Scopes.size_define] at hlt
    exact h.total hlt
  frames {k l} hkl := by
    obtain ⟨f, g, hf, hg, hfg⟩ := h.frames hkl
    have hiff : i = k ↔ j = l :=
      ⟨fun hik => h.functional hij (hik ▸ hkl), fun hjl => h.injective hij (hjl ▸ hkl)⟩
    simp only [Scopes.getElem?_define, hf, hg, hiff]
    split
    · exact ⟨_, _, rfl, rfl, hfg.define x hvw⟩
    · exact ⟨f, g, rfl, rfl, hfg⟩

theorem push_right (h : Renamed allowed M s t) (g : Frame Value) :
    Renamed allowed M s { t with scopes := ⟨t.scopes.frames.push g⟩ } where
  cells_eq := h.cells_eq
  fresh_eq := h.fresh_eq
  output_eq := h.output_eq
  handle := h.handle
  identity := h.identity
  base := h.base
  base_chain := h.base_chain
  injective := h.injective
  functional := h.functional
  total := h.total
  frames {i j} hij := by
    obtain ⟨f, g', hf, hg, hfg⟩ := h.frames hij
    refine ⟨f, g', hf, ?_, hfg⟩
    rw [Array.getElem?_push_lt (h.lt_right hij), ← Array.getElem?_eq_getElem (h.lt_right hij)]
    exact hg

theorem push (h : Renamed allowed M s t) {i j : FrameId} (hij : M.frame i j) :
    ∃ N, M ≤ N ∧ N.frame s.scopes.frames.size t.scopes.frames.size ∧
      Renamed allowed N { s with scopes := (s.scopes.push i).1 }
        { t with scopes := (t.scopes.push j).1 } := by
  let N : Matching :=
    { M with frame := fun k l => M.frame k l ∨ k = s.scopes.frames.size ∧ l = t.scopes.frames.size }
  have hMN : M ≤ N := ⟨.inl, id, id⟩
  refine ⟨N, hMN, .inr ⟨rfl, rfl⟩, ?_⟩
  exact {
    cells_eq := h.cells_eq
    fresh_eq := h.fresh_eq
    output_eq := h.output_eq
    handle := h.handle
    identity := h.identity
    base := .inl h.base
    base_chain := by
      rw [← h.base_chain]
      exact Scopes.chain_push _ (h.lt_left h.base)
    injective := by
      rintro k k' l (hkl | ⟨rfl, rfl⟩) (hkl' | ⟨rfl, hl⟩)
      · exact h.injective hkl hkl'
      · exact absurd (h.lt_right hkl) (Nat.not_lt.mpr (Nat.le_of_eq hl.symm))
      · exact absurd (h.lt_right hkl') (Nat.lt_irrefl _)
      · rfl
    functional := by
      rintro k l l' (hkl | ⟨rfl, rfl⟩) (hkl' | ⟨hk, rfl⟩)
      · exact h.functional hkl hkl'
      · exact absurd (h.lt_left hkl) (Nat.not_lt.mpr (Nat.le_of_eq hk.symm))
      · exact absurd (h.lt_left hkl') (Nat.lt_irrefl _)
      · rfl
    total := fun {k} hk => by
      rw [Scopes.frames_push, Array.size_push] at hk
      rcases Nat.lt_succ_iff_lt_or_eq.mp hk with hlt | heq
      · obtain ⟨l, hkl⟩ := h.total hlt
        exact ⟨l, .inl hkl⟩
      · exact ⟨_, .inr ⟨heq, rfl⟩⟩
    frames := by
      rintro k l (hkl | ⟨rfl, rfl⟩)
      · obtain ⟨f, g, hf, hg, hfg⟩ := h.frames hkl
        refine ⟨f, g, ?_, ?_, hfg.mono hMN⟩
        · rw [Scopes.frames_push, Array.getElem?_push_lt (h.lt_left hkl),
            ← Array.getElem?_eq_getElem (h.lt_left hkl), hf]
        · rw [Scopes.frames_push, Array.getElem?_push_lt (h.lt_right hkl),
            ← Array.getElem?_eq_getElem (h.lt_right hkl), hg]
      · refine ⟨⟨[], s.scopes.chain i⟩, ⟨[], t.scopes.chain j⟩, ?_, ?_, .nil, ?_⟩
        · rw [Scopes.frames_push, Array.getElem?_push_size]
        · rw [Scopes.frames_push, Array.getElem?_push_size]
        · exact (h.chain hij).imp fun _ _ => hMN.frame
  }

end Renamed

def uptoFrames (allowed : Native → Prop)
    (hconfigured : ∀ op bag, allowed (.operation op) → allowed (.configured op bag)) :
    Comparison where
  Stage := Unit
  lenient := False
  allowed := allowed
  writable _ := True
  known _ := True
  store _ := Renamed allowed
  configured _ := hconfigured _ _
  writable_base _ _ := trivial
  known_all _ _ _ := trivial
  frame_base hst := hst.base
  dish_eq {_ _ s t h k} hst hk := by
    rw [hst.handle] at hk
    cases hk
    simp only [Store.dish, hst.cells_eq]
  borrowed_eq {_ _ s t h k} hst hk := by
    rw [hst.handle] at hk
    cases hk
    simp only [Store.isBorrowed, hst.cells_eq]
  identity_iff hst ha hb := by
    rw [hst.identity] at ha hb
    rw [ha, hb]
  store_lookup hst he _ := rel_imp (fun _ _ hvw => hvw.agrees fun _ => trivial) (hst.lookup? he _)
  store_newIdentity {_ M _ _} hst :=
    ⟨M, le_rfl, by rw [hst.identity, hst.fresh_eq],
      hst.congr rfl rfl hst.cells_eq (congrArg (· + 1) hst.fresh_eq) hst.output_eq⟩
  store_write text hst :=
    hst.congr rfl rfl hst.cells_eq hst.fresh_eq (congrArg (· ++ text) hst.output_eq)
  store_newDish {_ M _ _} p hst :=
    ⟨M, le_rfl, by rw [hst.handle, hst.cells_eq],
      hst.congr rfl rfl (congrArg (·.push ⟨.good p, false⟩) hst.cells_eq) hst.fresh_eq
        hst.output_eq⟩
  store_push hst he := by
    obtain ⟨N, hMN, hnew, hst'⟩ := hst.push he
    exact ⟨N, hMN, hnew, trivial, hst'⟩
  store_define := by
    intro i M s t e e' x v w hst he _ hvw
    exact hst.define he x hvw.matches
  store_payload {_ _ s t h k p} q hst hk _ := by
    rw [hst.handle] at hk
    cases hk
    refine hst.congr rfl rfl ?_ hst.fresh_eq hst.output_eq
    simp only [Store.setDish, hst.cells_eq]
  store_borrow {_ _ s t h k p} hst hk _ _ := by
    rw [hst.handle] at hk
    cases hk
    refine ⟨(), hst.congr rfl rfl ?_ hst.fresh_eq hst.output_eq, fun _ hst' => ⟨?_, fun _ _ => ?_⟩⟩
    · simp only [Store.setBorrowed, hst.cells_eq]
    · refine hst'.congr rfl rfl ?_ hst'.fresh_eq hst'.output_eq
      simp only [Store.setBorrowed, hst'.cells_eq]
    · refine hst'.congr rfl rfl ?_ hst'.fresh_eq hst'.output_eq
      simp only [Store.setBorrowed, Store.setDish, hst'.cells_eq]

namespace Store

/-- All frames that are mentioned anywhere are there, and nothing is around the base frame. -/
structure Closed (s : Store) : Prop where
  base_chain : s.scopes.chain baseFrame = [baseFrame]
  outer : ∀ f ∈ s.scopes.frames, ∀ i ∈ f.outer, i < s.scopes.frames.size
  values : ∀ f ∈ s.scopes.frames, ∀ b ∈ f.bindings, ∀ i ∈ b.2.frames, i < s.scopes.frames.size

theorem Closed.lt_base {s : Store} (hs : s.Closed) : baseFrame < s.scopes.frames.size := by
  refine Scopes.lt_of_mem_chain (j := baseFrame) ?_
  rw [hs.base_chain]
  exact List.mem_singleton.mpr rfl

end Store

/-- The first `n` frames stand for themselves. -/
def Matching.keeping (n : Nat) : Matching :=
  ⟨fun i j => i = j ∧ i < n, Eq, Eq⟩

theorem Value.matches_keeping {v : Value} {n : Nat} (hframes : ∀ i ∈ v.frames, i < n)
    (hnatives : ∀ f ∈ v.natives, allowed f) :
    Agrees (.keeping n) allowed (fun _ => True) v v :=
  Matches.agrees (fun _ => trivial)
    (v.matches_self (fun _ => rfl) (fun _ => rfl) (fun i hi => ⟨rfl, hframes i hi⟩) hnatives)

mutual

theorem Value.Matches.exists_frame {v w : Value} :
    Matches M allowed v w → ∀ i ∈ v.frames, ∃ j, M.frame i j
  | .number _ | .boolean _ | .text _ | .symbol _ | .dish _ | .native _ _ => by simp [frames]
  | .list h => by simpa only [frames] using AllMatch.exists_frame h
  | .lambda _ _ hbody hframe => by
      simp only [frames, List.mem_cons, forall_eq_or_imp]
      exact ⟨⟨_, hframe⟩, hbody.exists_frame⟩

theorem Value.AllMatch.exists_frame {vs ws : List Value} :
    AllMatch M allowed vs ws → ∀ i ∈ framesAll vs, ∃ j, M.frame i j
  | .nil => by simp [framesAll]
  | .cons h hs => by
      simp only [framesAll, List.mem_append, or_imp, forall_and]
      exact ⟨h.exists_frame, AllMatch.exists_frame hs⟩

end

theorem Store.Closed.renamed_self {s : Store} (hs : s.Closed)
    (hnatives : ∀ f ∈ s.natives, allowed f) :
    Renamed allowed (.keeping s.scopes.frames.size) s s where
  cells_eq := rfl
  fresh_eq := rfl
  output_eq := rfl
  handle := rfl
  identity := rfl
  base := ⟨rfl, hs.lt_base⟩
  base_chain := hs.base_chain
  injective := by
    rintro i i' j ⟨rfl, _⟩ ⟨rfl, _⟩
    rfl
  functional := by
    rintro i j j' ⟨rfl, _⟩ ⟨rfl, _⟩
    rfl
  total hi := ⟨_, rfl, hi⟩
  frames := by
    rintro i _ ⟨rfl, hi⟩
    have hmem := Array.getElem_mem hi
    refine ⟨_, _, Array.getElem?_eq_getElem hi, Array.getElem?_eq_getElem hi, ?_, ?_⟩
    · refine List.forall₂_same.mpr fun b hb => ⟨rfl, (Value.matches_keeping ?_ ?_).matches⟩
      · exact hs.values _ hmem b hb
      · exact fun f hf => hnatives f (Store.mem_natives.mpr ⟨_, hmem, b, hb, hf⟩)
    · exact List.forall₂_same.mpr fun j hj => ⟨rfl, hs.outer _ hmem j hj⟩

theorem Renamed.closed_left {s t : Store} (h : Renamed allowed M s t) : s.Closed := by
  have hmatched {f : Frame Value} (hf : f ∈ s.scopes.frames) : ∃ g, f.Matches allowed M g := by
    obtain ⟨i, hi, rfl⟩ := Array.mem_iff_getElem.mp hf
    obtain ⟨j, hij⟩ := h.total hi
    obtain ⟨f, g, hf, _, hfg⟩ := h.frames hij
    rw [Array.getElem?_eq_getElem hi] at hf
    cases hf
    exact ⟨g, hfg⟩
  refine ⟨h.base_chain, ?_, ?_⟩
  · intro f hf
    obtain ⟨g, hfg⟩ := hmatched hf
    exact ((List.forall₂_and_left _ _).mp (hfg.outer.imp fun i j hij => ⟨h.lt_left hij, hij⟩)).1
  · intro f hf
    obtain ⟨g, hfg⟩ := hmatched hf
    refine ((List.forall₂_and_left _ _).mp (hfg.bindings.imp fun b c hb => ⟨fun i hi => ?_, hb⟩)).1
    obtain ⟨j, hij⟩ := hb.2.exists_frame i hi
    exact h.lt_left hij

abbrev anyFrames : Comparison :=
  uptoFrames (fun _ => True) fun _ _ _ => trivial

namespace Store

theorem Closed.of_agrees {α β : Type} {R : Matching → α → β → Prop} {m : Run α} {m' : Run β}
    {s : Store} (hs : s.Closed) (h : anyFrames.Agrees (.keeping s.scopes.frames.size) R m m') :
    (m s).2.Closed := by
  obtain ⟨N, _, hst, _⟩ :=
    (h () _ s s le_rfl (hs.renamed_self fun _ _ => trivial)).matched not_false
  exact Renamed.closed_left hst

/-- Closed stores stay closed, as long as what is evaluated and applied mentions frames that are
there. -/
theorem Closed.after_runs {s : Store} (hs : s.Closed) (fuel : Nat) :
    (∀ (e : Value) (frame : FrameId), (∀ i ∈ e.frames, i < s.scopes.frames.size) →
      frame < s.scopes.frames.size → (evaluate fuel e frame s).2.Closed) ∧
    (∀ (f : Value) (args : List Value) (caller : FrameId),
      (∀ i ∈ f.frames, i < s.scopes.frames.size) →
        (∀ i ∈ Value.framesAll args, i < s.scopes.frames.size) →
          (apply fuel f args caller s).2.Closed) ∧
    (∀ code, (evalText fuel code s).2.Closed) ∧
    ∀ ops, (register ops s).2.Closed := by
  refine ⟨?_, ?_, ?_, ?_⟩
  · intro e frame he hframe
    exact hs.of_agrees (Comparison.agrees_evaluate fuel
      ⟨fun _ _ => trivial, Value.matches_keeping he fun _ _ => trivial⟩ ⟨rfl, hframe⟩ trivial)
  · intro f args caller hf hargs
    have hargs' : anyFrames.Vals (.keeping s.scopes.frames.size) args args :=
      Value.AllMatch.allAgree (fun _ => trivial) (Value.allMatch_self (fun _ => rfl) (fun _ => rfl)
        args (fun i hi => ⟨rfl, hargs i hi⟩) fun _ _ => trivial)
    exact hs.of_agrees (Comparison.agrees_apply fuel
      (Value.matches_keeping hf fun _ _ => trivial) hargs' caller caller)
  · intro code
    exact hs.of_agrees (Comparison.agrees_evalText fuel code (fun _ _ _ _ => trivial) ⟨rfl, hs.lt_base⟩
      trivial)
  · intro ops
    exact hs.of_agrees (Comparison.agrees_registerFrom (M := .keeping _) ops (fun _ _ => trivial)
      ⟨rfl, hs.lt_base⟩ trivial [])

theorem closed_empty : Store.empty.Closed where
  base_chain := rfl
  outer := by simp [Store.empty, Scopes.base]
  values := by simp [Store.empty, Scopes.base]

theorem closed_initial (characters : Pattern.CharacterNames) : (Store.initial characters).Closed :=
  closed_empty.of_agrees (Comparison.agrees_installBase characters (fun _ => trivial)
    (fun _ => trivial) ⟨rfl, closed_empty.lt_base⟩ trivial)

end Store

end Bakehouse
