import Bakehouse.Proofs.Invariant

namespace Bakehouse

/-- No function in the value runs code of its own. -/
def Value.NoReentry (v : Value) : Prop :=
  ∀ f ∈ v.natives, f.reenters = false

/-- No function that is bound anywhere runs code of its own. -/
def Store.NoReentry (s : Store) : Prop :=
  ∀ f ∈ s.natives, f.reenters = false

theorem Value.mem_nativesAll {f : Native} {vs : List Value} :
    f ∈ nativesAll vs ↔ ∃ v ∈ vs, f ∈ v.natives := by
  induction vs with
  | nil => simp [nativesAll]
  | cons v vs ih => simp [nativesAll, ih]

/-- Frames that stay as they are; all others may change. -/
def framesFixed (fixed : FrameId → Option (Frame Value)) : Invariant where
  Stage := Unit
  allowed f := f.reenters = false
  writable e := fixed e = none
  holds _ s := ∀ i f, fixed i = some f → s.scopes.frames[i]? = some f
  configured _ hop := hop
  writable_base hf hreenters := by
    rw [hf] at hreenters
    exact absurd hreenters (by decide)
  congr hs hscopes _ := by rwa [hscopes]
  push {_ s} e hs := by
    constructor
    · -- A fixed frame is there already, so the new one is none of them.
      rw [Option.eq_none_iff_forall_ne_some]
      intro f hf
      have hnone : s.scopes.frames[s.scopes.frames.size]? = none := by simp
      rw [hs _ f hf] at hnone
      cases hnone
    · intro i f hf
      have hi := hs i f hf
      obtain ⟨hlt, _⟩ := Array.getElem?_eq_some_iff.mp hi
      rw [Scopes.frames_push, Array.getElem?_push_lt hlt, ← hi, Array.getElem?_eq_getElem hlt]
  define {_ s e} x v hs he := by
    intro i f hf
    have hne : e ≠ i := by
      rintro rfl
      rw [he] at hf
      cases hf
    rw [Scopes.getElem?_define, if_neg hne]
    exact hs i f hf
  newDish _ hs := hs
  payload _ hs _ := hs
  borrow hs _ _ := ⟨(), hs, fun ht => ⟨ht, fun _ _ => ht⟩⟩

theorem Store.noReentry_initial (characters : Pattern.CharacterNames) :
    (Store.initial characters).NoReentry :=
  (Invariant.stands_initial characters (I := framesFixed fun _ => none) (i := ()) (fun _ => rfl)
    (fun _ => rfl) rfl (by rintro i f ⟨⟩)).natives

theorem evaluate_frame_eq (fuel : Nat) {e : Value} (he : e.NoReentry) (frame : FrameId) {s : Store}
    (hs : s.NoReentry) {i : FrameId} (hi : i < s.scopes.frames.size) (hne : i ≠ frame) :
    (evaluate fuel e frame s).2.scopes.frames[i]? = s.scopes.frames[i]? := by
  let fixed : FrameId → Option (Frame Value) :=
    fun j => if j = frame then none else s.scopes.frames[j]?
  have hstands : (framesFixed fixed).Stands () s := by
    refine ⟨fun j f hf => ?_, hs⟩
    simp only [fixed] at hf
    split at hf
    · cases hf
    · exact hf
  have hkept := (hstands.evaluate fuel he (if_pos rfl)).holds
  have hframe := Array.getElem?_eq_getElem hi
  rw [hframe]
  exact hkept i _ (by simp only [fixed, if_neg hne, hframe])

theorem apply_stands (fuel : Nat) {f : Value} (hf : f.NoReentry) {args : List Value}
    (hargs : ∀ v ∈ args, v.NoReentry) (caller : FrameId) {s : Store} (hs : s.NoReentry) :
    (framesFixed fun j => s.scopes.frames[j]?).Stands () (apply fuel f args caller s).2 := by
  have hstands : (framesFixed fun j => s.scopes.frames[j]?).Stands () s :=
    ⟨fun _ _ h => h, hs⟩
  have hargs' : ∀ g ∈ Value.nativesAll args, g.reenters = false := by
    intro g hg
    obtain ⟨v, hv, hgv⟩ := Value.mem_nativesAll.mp hg
    exact hargs v hv g hgv
  exact hstands.apply fuel hf hargs' caller

theorem apply_frame_eq (fuel : Nat) {f : Value} (hf : f.NoReentry) {args : List Value}
    (hargs : ∀ v ∈ args, v.NoReentry) (caller : FrameId) {s : Store} (hs : s.NoReentry)
    {i : FrameId} (hi : i < s.scopes.frames.size) :
    (apply fuel f args caller s).2.scopes.frames[i]? = s.scopes.frames[i]? := by
  have hframe := Array.getElem?_eq_getElem hi
  rw [hframe]
  exact (apply_stands fuel hf hargs caller hs).holds i _ hframe

theorem apply_noReentry (fuel : Nat) {f : Value} (hf : f.NoReentry) {args : List Value}
    (hargs : ∀ v ∈ args, v.NoReentry) (caller : FrameId) {s : Store} (hs : s.NoReentry) :
    (apply fuel f args caller s).2.NoReentry :=
  (apply_stands fuel hf hargs caller hs).natives

/-- However an evaluation ends, it has left all frames but its own as they were; an application has
left all of them, the caller's included. -/
theorem calls_leave_frames {s : Store} (hs : s.NoReentry) (fuel : Nat) :
    (∀ (e : Value) (frame : FrameId), e.NoReentry →
      ∀ i < s.scopes.frames.size, i ≠ frame →
        (evaluate fuel e frame s).2.scopes.frames[i]? = s.scopes.frames[i]?) ∧
    (∀ (f : Value) (args : List Value) (caller : FrameId), f.NoReentry →
      (∀ v ∈ args, v.NoReentry) →
        ∀ i < s.scopes.frames.size,
          (apply fuel f args caller s).2.scopes.frames[i]? = s.scopes.frames[i]?) := by
  constructor
  · intro e frame he i hi hne
    exact evaluate_frame_eq fuel he frame hs hi hne
  · intro f args caller hf hargs i hi
    exact apply_frame_eq fuel hf hargs caller hs hi

/-- Two frames, and a function of the inner one that redefines its parameter. -/
theorem calls_leave_frames_nested :
    let s : Store := { Store.initial [] with scopes := ((Store.initial []).scopes.push baseFrame).1 }
    let x : Symbol := ⟨"x", by decide⟩
    let body : Value := .list [.symbol ⟨"def", by decide⟩, .symbol x, .boolean false]
    s.NoReentry ∧ s.scopes.frames.size = 2 ∧
      (evaluate 3 body 1 s).2.scopes.frames[0]? = s.scopes.frames[0]? ∧
        (apply 3 (.lambda 0 [x] body 1) [.boolean true] 1 s).2.scopes.frames[1]? =
          s.scopes.frames[1]? := by
  intro s x body
  have hs : s.NoReentry := fun f hf => Store.noReentry_initial [] f (Store.natives_push hf)
  have hsize : s.scopes.frames.size = 2 := by decide +kernel
  have hbody : body.NoReentry := by simp [Value.NoReentry, body, Value.natives, Value.nativesAll]
  obtain ⟨hevaluate, happly⟩ := calls_leave_frames hs 3
  refine ⟨hs, hsize, hevaluate body 1 hbody 0 (by omega) (by decide), ?_⟩
  exact happly (.lambda 0 [x] body 1) [.boolean true] 1
    (by simpa [Value.NoReentry, Value.natives] using hbody)
    (by simp [Value.NoReentry, Value.natives]) 1 (by omega)

end Bakehouse
