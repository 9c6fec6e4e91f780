import Bakehouse.Proofs.Bindings
import Bakehouse.Proofs.Comparison

/-!
What values are made of. The language takes values apart and puts them together again, but it makes
no new strings and no new symbols except `nil`; so as long as code is read within a vocabulary of
strings and symbols, everything that is ever bound or answered stays within it. Two runs are followed
at once, so that an evaluator can be replaced by another one that does the same within the
vocabulary.
-/

namespace Bakehouse

/-- The strings and symbols that may occur. -/
structure Vocabulary where
  text : String → Prop
  symbol : Symbol → Prop
  nil : symbol .nil

inductive Form.Within (V : Vocabulary) : Form → Prop
  | number (x : Float) : Within V (.number x)
  | boolean (b : Bool) : Within V (.boolean b)
  | text {s : String} (hs : V.text s) : Within V (.text s)
  | symbol {x : Symbol} (hx : V.symbol x) : Within V (.symbol x)
  | list {fs : List Form} (hfs : ∀ f ∈ fs, Within V f) : Within V (.list fs)
  | dish (p : Payload) : Within V (.dish p)

/-- The strings and symbols of the value belong to the vocabulary, those in its code included. -/
inductive Value.Within (V : Vocabulary) : Value → Prop
  | number (x : Float) : Within V (.number x)
  | boolean (b : Bool) : Within V (.boolean b)
  | text {s : String} (hs : V.text s) : Within V (.text s)
  | symbol {x : Symbol} (hx : V.symbol x) : Within V (.symbol x)
  | list {vs : List Value} (hvs : ∀ v ∈ vs, Within V v) : Within V (.list vs)
  | dish (handle : Handle) : Within V (.dish handle)
  | lambda {params : List Symbol} {body : Value} (id : Nat) (frame : FrameId)
      (hparams : ∀ x ∈ params, V.symbol x) (hbody : Within V body) :
      Within V (.lambda id params body frame)
  | native (id : Nat) (f : Native) : Within V (.native id f)

/-- All names that are bound, and all values that they are bound to, are within the vocabulary. -/
def Store.Within (V : Vocabulary) (s : Store) : Prop :=
  ∀ f ∈ s.scopes.frames, ∀ b ∈ f.bindings, V.symbol b.1 ∧ b.2.Within V

variable {V : Vocabulary}

theorem Value.within_nil : Value.nil.Within V :=
  .symbol V.nil

namespace Store

variable {s t : Store}

theorem Within.congr (hs : s.Within V) (h : t.scopes = s.scopes) : t.Within V := by
  unfold Within
  rwa [h]

theorem Within.lookup (hs : s.Within V) {e : FrameId} {x : Symbol} {v : Value}
    (h : s.scopes.lookup? e x = some v) : v.Within V := by
  obtain ⟨f, hf, hb⟩ := Scopes.exists_frame_of_lookup? h
  exact (hs f hf _ hb).2

theorem Within.push (hs : s.Within V) (e : FrameId) :
    ({ s with scopes := (s.scopes.push e).1 } : Store).Within V := by
  intro f hf b hb
  simp only [Scopes.frames_push, Array.mem_push] at hf
  rcases hf with hf | rfl
  · exact hs f hf b hb
  · simp at hb

theorem Within.define (hs : s.Within V) (e : FrameId) {x : Symbol} {v : Value} (hx : V.symbol x)
    (hv : v.Within V) : ({ s with scopes := s.scopes.define e x v } : Store).Within V := by
  intro f hf b hb
  obtain ⟨i, hi⟩ := Array.mem_iff_getElem?.mp hf
  rw [Scopes.getElem?_define] at hi
  split at hi
  · obtain ⟨g, hg, rfl⟩ := Option.map_eq_some_iff.mp hi
    rcases Frame.mem_bindings_define hb with hb | rfl
    · exact hs g (Array.mem_of_getElem? hg) b hb
    · exact ⟨hx, hv⟩
  · exact hs f (Array.mem_of_getElem? hi) b hb

end Store

namespace Vocabulary

variable {α β : Type} {R : α → Prop} {T : β → Prop}

/-- From every store within the vocabulary both runs do the same; they end within it, and their
answers satisfy `R`. -/
def Alike (V : Vocabulary) (R : α → Prop) (m m' : Run α) : Prop :=
  ∀ s, s.Within V → m s = m' s ∧ (m' s).2.Within V ∧ ∀ a, (m' s).1 = .ok a → R a

/-- The run stays within the vocabulary, and its answers satisfy `R`. -/
abbrev Keeps (V : Vocabulary) (R : α → Prop) (m : Run α) : Prop :=
  V.Alike R m m

theorem Alike.pure {a : α} (ha : R a) : V.Keeps R (Pure.pure a) := by
  intro s hs
  refine ⟨rfl, hs, ?_⟩
  rintro _ ⟨⟩
  exact ha

theorem Alike.raise (e : Error) : V.Keeps R (Bakehouse.raise e) := by
  intro s hs
  exact ⟨rfl, hs, by rintro _ ⟨⟩⟩

theorem Alike.bind {m m' : Run α} {k k' : α → Run β} (hm : V.Alike R m m')
    (hk : ∀ a, R a → V.Alike T (k a) (k' a)) : V.Alike T (m >>= k) (m' >>= k') := by
  intro s hs
  obtain ⟨heq, hwithin, hanswer⟩ := hm s hs
  rw [Run.bind_apply, Run.bind_apply, heq]
  generalize m' s = o at hwithin hanswer
  rcases o with ⟨_ | a, t⟩
  · exact ⟨rfl, hwithin, by rintro _ ⟨⟩⟩
  · exact hk a (hanswer a rfl) t hwithin

theorem Alike.weaken {m m' : Run α} {R' : α → Prop} (hm : V.Alike R m m')
    (h : ∀ a, R a → R' a) : V.Alike R' m m' := by
  intro s hs
  obtain ⟨heq, hwithin, hanswer⟩ := hm s hs
  exact ⟨heq, hwithin, fun a ha => h a (hanswer a ha)⟩

theorem Alike.get_bind {k k' : Store → Run β} (hk : ∀ s, s.Within V → V.Alike T (k s) (k' s)) :
    V.Alike T (get >>= k) (get >>= k') :=
  fun s hs => hk s hs s hs

theorem Alike.modify {f : Store → Store} (hf : ∀ s, s.Within V → (f s).Within V) :
    V.Keeps (fun _ => True) (modify f : Run Unit) :=
  fun s hs => ⟨rfl, hf s hs, fun _ _ => trivial⟩

theorem Alike.mapM {γ : Type} {f f' : γ → Run β} {xs : List γ}
    (hf : ∀ x ∈ xs, V.Alike T (f x) (f' x)) :
    V.Alike (fun ys => ∀ y ∈ ys, T y) (xs.mapM f) (xs.mapM f') := by
  induction xs with
  | nil =>
      rw [List.mapM_nil]
      exact .pure (by simp)
  | cons x xs ih =>
      simp only [List.forall_mem_cons] at hf
      rw [List.mapM_cons, List.mapM_cons]
      refine hf.1.bind fun y hy => (ih hf.2).bind fun ys hys => .pure ?_
      simpa [hy] using hys

theorem Alike.forM {γ : Type} {f f' : γ → Run PUnit} {xs : List γ}
    (hf : ∀ x ∈ xs, V.Alike (fun _ => True) (f x) (f' x)) :
    V.Alike (fun _ => True) (xs.forM f) (xs.forM f') := by
  induction xs with
  | nil => exact .pure trivial
  | cons x xs ih =>
      simp only [List.forall_mem_cons] at hf
      exact Alike.bind hf.1 fun _ _ => ih hf.2

/-- A borrowed dish makes no difference to what is bound. -/
theorem Alike.borrowing (h : Handle) {m m' : Run α} (hm : V.Alike R m m') :
    V.Alike R (Operation.borrowing h m) (Operation.borrowing h m') := by
  intro s hs
  obtain ⟨heq, hwithin, hanswer⟩ := hm (s.setBorrowed h true) (hs.congr rfl)
  simp only [Operation.borrowing, heq]
  exact ⟨trivial, hwithin.congr rfl, hanswer⟩

theorem Alike.unlessFault {first first' second second' : Run (Option Fault)}
    (hfirst : V.Alike (fun _ => True) first first')
    (hsecond : V.Alike (fun _ => True) second second') :
    V.Alike (fun _ => True) (Operation.unlessFault first second)
      (Operation.unlessFault first' second') := by
  refine hfirst.bind fun found _ => ?_
  cases found with
  | some f => exact .pure trivial
  | none => exact hsecond

theorem Alike.recovering {m m' handler handler' : Run α} (hm : V.Alike R m m')
    (hhandler : V.Alike R handler handler') :
    V.Alike R (Operation.recovering m handler) (Operation.recovering m' handler') := by
  intro s hs
  obtain ⟨heq, hwithin, hanswer⟩ := hm s hs
  simp only [Operation.recovering, heq]
  generalize m' s = o at hwithin hanswer
  rcases o with ⟨(e | _) | a, t⟩
  · simp only
    split
    · exact hhandler t hwithin
    · exact ⟨rfl, hwithin, hanswer⟩
  · exact ⟨rfl, hwithin, hanswer⟩
  · exact ⟨rfl, hwithin, hanswer⟩

theorem keeps_shown (v : Value) : V.Keeps (fun _ => True) (shown v) :=
  .get_bind fun _ _ => .pure trivial

theorem keeps_typeError (make : String → TypeError) (v : Value) : V.Keeps R (typeError make v) := by
  intro s hs
  exact ⟨rfl, hs, by rintro _ ⟨⟩⟩

theorem keeps_newIdentity : V.Keeps (fun _ => True) newIdentity :=
  fun _ hs => ⟨rfl, hs, fun _ _ => trivial⟩

theorem keeps_newDish (p : Payload) : V.Keeps (Value.Within V) (newDish p) := by
  intro s hs
  refine ⟨rfl, hs, ?_⟩
  rintro _ ⟨⟩
  exact .dish _

theorem keeps_write (text : String) : V.Keeps (fun _ => True) (write text) :=
  .modify fun _ hs => hs

theorem keeps_pushFrame (outer : FrameId) : V.Keeps (fun _ => True) (pushFrame outer) :=
  fun _ hs => ⟨rfl, hs.push outer, fun _ _ => trivial⟩

theorem keeps_defineIn (frame : FrameId) {x : Symbol} {v : Value} (hx : V.symbol x)
    (hv : v.Within V) : V.Keeps (fun _ => True) (defineIn frame x v) :=
  .modify fun _ hs => hs.define frame hx hv

theorem keeps_lookupFrom (frame : FrameId) (x : Symbol) :
    V.Keeps (Value.Within V) (lookupFrom frame x) := by
  refine .get_bind fun s hs => ?_
  cases hfound : s.scopes.lookup? frame x with
  | none => exact .raise _
  | some v => exact .pure (hs.lookup hfound)

mutual

theorem keeps_load : ∀ f : Form, f.Within V → V.Keeps (Value.Within V) f.load
  | .number x, _ => .pure (.number x)
  | .boolean b, _ => .pure (.boolean b)
  | .text s, .text hs => .pure (.text hs)
  | .symbol x, .symbol hx => .pure (.symbol hx)
  | .list items, .list hitems => by
      simp only [Form.load]
      exact (keeps_loadAll items hitems).bind fun vs hvs => .pure (.list hvs)
  | .dish p, _ => keeps_newDish p

theorem keeps_loadAll : ∀ fs : List Form, (∀ f ∈ fs, f.Within V) →
    V.Keeps (fun vs => ∀ v ∈ vs, v.Within V) (Form.loadAll fs)
  | [], _ => .pure (by simp)
  | f :: fs, hfs => by
      simp only [List.forall_mem_cons] at hfs
      simp only [Form.loadAll]
      refine (keeps_load f hfs.1).bind fun v hv => ?_
      refine (keeps_loadAll fs hfs.2).bind fun vs hvs => .pure ?_
      simpa [hv] using hvs

end

/-- Evaluators that do the same with code within the vocabulary. -/
def EvalAlike (V : Vocabulary) (eval eval' : Eval) : Prop :=
  ∀ {e : Value} (frame : FrameId), e.Within V →
    V.Alike (Value.Within V) (eval e frame) (eval' e frame)

section SpecialForms

open SpecialForm

variable {eval eval' : Eval} {tail : List Value}

theorem keeps_parameters {v : Value} (hv : v.Within V) :
    V.Keeps (fun names => ∀ x ∈ names, V.symbol x) (parameters v) := by
  refine .get_bind fun s _ => ?_
  cases hv with
  | list hitems =>
      refine .mapM fun item hitem => ?_
      cases hitems item hitem with
      | symbol hx => exact .pure hx
      | _ => exact .raise _
  | _ => exact .raise _

theorem keeps_makeLambda {params body : Value} (hparams : params.Within V) (hbody : body.Within V)
    (frame : FrameId) : V.Keeps (Value.Within V) (makeLambda params body frame) := by
  refine (keeps_parameters hparams).bind fun names hnames => ?_
  exact keeps_newIdentity.bind fun id _ => .pure (.lambda id frame hnames hbody)

theorem keeps_expectSymbol {v : Value} (hv : v.Within V) : V.Keeps V.symbol (expectSymbol v) := by
  cases hv with
  | symbol hx => exact .pure hx
  | _ => exact keeps_typeError _ _

theorem keeps_evalQuote (htail : ∀ v ∈ tail, v.Within V) :
    V.Keeps (Value.Within V) (evalQuote tail) := by
  rcases tail with _ | ⟨x, _ | ⟨_, _⟩⟩
  · exact .raise _
  · exact .pure (htail x (by simp))
  · exact .raise _

theorem keeps_evalFunction (frame : FrameId) (htail : ∀ v ∈ tail, v.Within V) :
    V.Keeps (Value.Within V) (evalFunction frame tail) := by
  rcases tail with _ | ⟨params, _ | ⟨body, _ | ⟨_, _⟩⟩⟩
  · exact .raise _
  · exact .raise _
  · exact keeps_makeLambda (htail params (by simp)) (htail body (by simp)) frame
  · exact .raise _

theorem alike_evalDefine (heval : V.EvalAlike eval eval') (frame : FrameId)
    (htail : ∀ v ∈ tail, v.Within V) :
    V.Alike (Value.Within V) (evalDefine eval frame tail) (evalDefine eval' frame tail) := by
  rcases tail with _ | ⟨name, _ | ⟨value, _ | ⟨_, _⟩⟩⟩
  · exact .raise _
  · exact .raise _
  · refine (keeps_expectSymbol (htail name (by simp))).bind fun x hx => ?_
    refine (heval frame (htail value (by simp))).bind fun v hv => ?_
    exact (keeps_defineIn frame hx hv).bind fun _ _ => .pure (.symbol hx)
  · exact .raise _

theorem keeps_evalDefineFunction (frame : FrameId) (htail : ∀ v ∈ tail, v.Within V) :
    V.Keeps (Value.Within V) (evalDefineFunction frame tail) := by
  rcases tail with _ | ⟨name, _ | ⟨params, _ | ⟨body, _ | ⟨_, _⟩⟩⟩⟩
  · exact .raise _
  · exact .raise _
  · exact .raise _
  · refine (keeps_expectSymbol (htail name (by simp))).bind fun x hx => ?_
    refine (keeps_makeLambda (htail params (by simp)) (htail body (by simp)) frame).bind
      fun v hv => ?_
    exact (keeps_defineIn frame hx hv).bind fun _ _ => .pure (.symbol hx)
  · exact .raise _

theorem alike_evalConditional (heval : V.EvalAlike eval eval') (frame : FrameId)
    (htail : ∀ v ∈ tail, v.Within V) :
    V.Alike (Value.Within V) (evalConditional eval frame tail)
      (evalConditional eval' frame tail) := by
  cases tail with
  | nil => exact .raise _
  | cons test branches =>
      simp only [List.forall_mem_cons] at htail
      simp only [evalConditional]
      split
      · exact .raise _
      · refine (heval frame htail.1).bind fun v _ => ?_
        cases v with
        | boolean b =>
            simp only
            split
            · rename_i branch hbranch
              exact heval frame (htail.2 branch (List.mem_of_getElem? hbranch))
            · exact .raise _
        | _ => exact keeps_typeError _ _

theorem alike_specialForm (form : SpecialForm) (heval : V.EvalAlike eval eval') (frame : FrameId)
    (htail : ∀ v ∈ tail, v.Within V) :
    V.Alike (Value.Within V) (form.eval eval frame tail) (form.eval eval' frame tail) := by
  cases form with
  | quote => exact keeps_evalQuote htail
  | function => exact keeps_evalFunction frame htail
  | define => exact alike_evalDefine heval frame htail
  | defineFunction => exact keeps_evalDefineFunction frame htail
  | conditional => exact alike_evalConditional heval frame htail

end SpecialForms

end Vocabulary

end Bakehouse
