import Bakehouse.Language.Equality
import Mathlib.Data.List.Forall2
import Mathlib.Order.Basic

namespace Bakehouse

/-- Which frames, dishes and functions of two stores stand for each other. -/
structure Matching where
  frame : FrameId → FrameId → Prop
  handle : Handle → Handle → Prop
  identity : Nat → Nat → Prop

namespace Matching

structure Le (M N : Matching) : Prop where
  frame {i j : FrameId} : M.frame i j → N.frame i j
  handle {h k : Handle} : M.handle h k → N.handle h k
  identity {a b : Nat} : M.identity a b → N.identity a b

instance : Preorder Matching where
  le := Le
  le_refl _ := ⟨id, id, id⟩
  le_trans _ _ _ hMN hNO :=
    ⟨hNO.frame ∘ hMN.frame, hNO.handle ∘ hMN.handle, hNO.identity ∘ hMN.identity⟩

def same : Matching := ⟨Eq, Eq, Eq⟩

end Matching

namespace Value

/-- Matching values, in which all native functions are `allowed` ones. -/
inductive Matches (M : Matching) (allowed : Native → Prop) : Value → Value → Prop
  | number (x : Float) : Matches M allowed (.number x) (.number x)
  | boolean (b : Bool) : Matches M allowed (.boolean b) (.boolean b)
  | text (s : String) : Matches M allowed (.text s) (.text s)
  | symbol (x : Symbol) : Matches M allowed (.symbol x) (.symbol x)
  | list {vs ws : List Value} (h : List.Forall₂ (Matches M allowed) vs ws) :
      Matches M allowed (.list vs) (.list ws)
  | dish {h k : Handle} (hk : M.handle h k) : Matches M allowed (.dish h) (.dish k)
  | lambda {a b : Nat} {i j : FrameId} {body body' : Value} (params : List Symbol)
      (hid : M.identity a b) (hbody : Matches M allowed body body') (hframe : M.frame i j) :
      Matches M allowed (.lambda a params body i) (.lambda b params body' j)
  | native {a b : Nat} {f : Native} (hid : M.identity a b) (hf : allowed f) :
      Matches M allowed (.native a f) (.native b f)

abbrev AllMatch (M : Matching) (allowed : Native → Prop) : List Value → List Value → Prop :=
  List.Forall₂ (Matches M allowed)

variable {M N : Matching} {allowed : Native → Prop}

theorem Matches.nil : Matches M allowed Value.nil Value.nil :=
  .symbol _

mutual

theorem Matches.mono (hMN : M ≤ N) {v w : Value} :
    Matches M allowed v w → Matches N allowed v w
  | .number x => .number x
  | .boolean b => .boolean b
  | .text s => .text s
  | .symbol x => .symbol x
  | .list h => .list (AllMatch.mono hMN h)
  | .dish hk => .dish (hMN.handle hk)
  | .lambda params hid hbody hframe =>
      .lambda params (hMN.identity hid) (hbody.mono hMN) (hMN.frame hframe)
  | .native hid hf => .native (hMN.identity hid) hf

theorem AllMatch.mono (hMN : M ≤ N) {vs ws : List Value} :
    AllMatch M allowed vs ws → AllMatch N allowed vs ws
  | .nil => .nil
  | .cons h hs => .cons (h.mono hMN) (AllMatch.mono hMN hs)

end

theorem Matches.isFunction_eq {v w : Value} (h : Matches M allowed v w) :
    v.isFunction = w.isFunction := by
  cases h <;> rfl

theorem AllMatch.all_isFunction_eq {vs ws : List Value} (h : AllMatch M allowed vs ws) :
    vs.all (·.isFunction) = ws.all (·.isFunction) := by
  induction h with
  | nil => rfl
  | cons hv _ ih => rw [List.all_cons, List.all_cons, hv.isFunction_eq, ih]

mutual

theorem Matches.display_eq {dishes dishes' : Handle → Dish}
    (hdish : ∀ {h k}, M.handle h k → dishes h = dishes' k) (readable : Bool) {v w : Value} :
    Matches M allowed v w → v.display dishes readable = w.display dishes' readable
  | .number _ | .boolean _ | .text _ | .symbol _ => by simp only [display]
  | .list h => by simp only [display, AllMatch.displayAll_eq hdish readable h]
  | .dish hk => by simp only [display, hdish hk]
  | .lambda _ _ _ _ | .native _ _ => by simp only [display]

theorem AllMatch.displayAll_eq {dishes dishes' : Handle → Dish}
    (hdish : ∀ {h k}, M.handle h k → dishes h = dishes' k) (readable : Bool)
    {vs ws : List Value} :
    AllMatch M allowed vs ws → displayAll dishes readable vs = displayAll dishes' readable ws
  | .nil => by simp only [displayAll]
  | .cons h hs => by
      simp only [displayAll, h.display_eq hdish readable, AllMatch.displayAll_eq hdish readable hs]

end

mutual

theorem Matches.inspect_eq {dishes dishes' : Handle → Dish}
    (hdish : ∀ {h k}, M.handle h k → dishes h = dishes' k) {v w : Value} :
    Matches M allowed v w → v.inspect dishes = w.inspect dishes'
  | .number _ | .boolean _ | .text _ | .symbol _ => by simp only [inspect]
  | .list h => by simp only [inspect, AllMatch.inspectAll_eq hdish h]
  | .dish hk => by simp only [inspect, hdish hk]
  | .lambda _ _ hbody _ => by simp only [inspect, hbody.inspect_eq hdish]
  | .native _ _ => by simp only [inspect]

theorem AllMatch.inspectAll_eq {dishes dishes' : Handle → Dish}
    (hdish : ∀ {h k}, M.handle h k → dishes h = dishes' k) {vs ws : List Value} :
    AllMatch M allowed vs ws → inspectAll dishes vs = inspectAll dishes' ws
  | .nil => by simp only [inspectAll]
  | .cons h hs => by
      simp only [inspectAll, h.inspect_eq hdish, AllMatch.inspectAll_eq hdish hs]

end

theorem Matches.bare_eq {dishes dishes' : Handle → Dish}
    (hdish : ∀ {h k}, M.handle h k → dishes h = dishes' k) {v w : Value}
    (h : Matches M allowed v w) : v.bare dishes = w.bare dishes' := by
  have hinspect := h.inspect_eq hdish
  cases h with
  | dish hk => simp only [bare, hdish hk]
  | _ => simp only [bare, hinspect]

mutual

/-- Functions are equal by their identities, so these have to be matched one to one. -/
theorem Matches.same_eq {dishes dishes' : Handle → Dish}
    (hdish : ∀ {h k}, M.handle h k → dishes h = dishes' k)
    (hidentity : ∀ {a a' b b'}, M.identity a a' → M.identity b b' → (a = b ↔ a' = b'))
    {v v' w w' : Value} :
    Matches M allowed v v' → Matches M allowed w w' → v.same dishes w = v'.same dishes' w'
  | .number _, hw | .boolean _, hw | .text _, hw | .symbol _, hw => by
      cases hw <;> simp only [same]
  | .list h, hw => by
      cases hw with
      | list h' => simp only [same, AllMatch.sameAll_eq hdish hidentity h h']
      | _ => simp only [same]
  | .dish hk, hw => by
      cases hw with
      | dish hk' => simp only [same, hdish hk, hdish hk']
      | _ => simp only [same]
  | .lambda _ hid _ _, hw => by
      cases hw with
      | lambda _ hid' => simp only [same, Bool.beq_eq_decide_eq, hidentity hid hid']
      | _ => simp only [same]
  | .native hid _, hw => by
      cases hw with
      | native hid' => simp only [same, Bool.beq_eq_decide_eq, hidentity hid hid']
      | _ => simp only [same]

theorem AllMatch.sameAll_eq {dishes dishes' : Handle → Dish}
    (hdish : ∀ {h k}, M.handle h k → dishes h = dishes' k)
    (hidentity : ∀ {a a' b b'}, M.identity a a' → M.identity b b' → (a = b ↔ a' = b'))
    {vs vs' ws ws' : List Value} :
    AllMatch M allowed vs vs' → AllMatch M allowed ws ws' →
      sameAll dishes vs ws = sameAll dishes' vs' ws'
  | .nil, hw => by cases hw <;> simp only [sameAll]
  | .cons h hs, hw => by
      cases hw with
      | nil => simp only [sameAll]
      | cons h' hs' =>
          simp only [sameAll, h.same_eq hdish hidentity h',
            AllMatch.sameAll_eq hdish hidentity hs hs']

end

mutual

/-- The native functions in a value, those in its code included. -/
def natives : Value → List Native
  | .list items => nativesAll items
  | .lambda _ _ body _ => natives body
  | .native _ f => [f]
  | _ => []

def nativesAll : List Value → List Native
  | [] => []
  | v :: vs => natives v ++ nativesAll vs

end

mutual

/-- The frames that the functions in a value were made in. -/
def frames : Value → List FrameId
  | .list items => framesAll items
  | .lambda _ _ body i => i :: frames body
  | _ => []

def framesAll : List Value → List FrameId
  | [] => []
  | v :: vs => frames v ++ framesAll vs

end

mutual

theorem matches_self (hhandle : ∀ h, M.handle h h) (hidentity : ∀ a, M.identity a a) :
    ∀ v : Value, (∀ i ∈ v.frames, M.frame i i) → (∀ f ∈ v.natives, allowed f) →
      Matches M allowed v v
  | .number x, _, _ => .number x
  | .boolean b, _, _ => .boolean b
  | .text s, _, _ => .text s
  | .symbol x, _, _ => .symbol x
  | .list items, hframes, hnatives =>
      .list (allMatch_self hhandle hidentity items (by simpa only [frames] using hframes)
        (by simpa only [natives] using hnatives))
  | .dish h, _, _ => .dish (hhandle h)
  | .lambda a params body i, hframes, hnatives => by
      simp only [frames, List.mem_cons, forall_eq_or_imp] at hframes
      simp only [natives] at hnatives
      exact .lambda params (hidentity a)
        (matches_self hhandle hidentity body hframes.2 hnatives) hframes.1
  | .native a f, _, hnatives => .native (hidentity a) (hnatives f (by simp [natives]))

theorem allMatch_self (hhandle : ∀ h, M.handle h h) (hidentity : ∀ a, M.identity a a) :
    ∀ vs : List Value, (∀ i ∈ framesAll vs, M.frame i i) → (∀ f ∈ nativesAll vs, allowed f) →
      AllMatch M allowed vs vs
  | [], _, _ => .nil
  | v :: vs, hframes, hnatives => by
      simp only [framesAll, nativesAll, List.mem_append, or_imp, forall_and] at hframes hnatives
      exact .cons (matches_self hhandle hidentity v hframes.1 hnatives.1)
        (allMatch_self hhandle hidentity vs hframes.2 hnatives.2)

end

mutual

theorem Matches.natives_allowed {v w : Value} :
    Matches M allowed v w → ∀ f ∈ w.natives, allowed f
  | .number _ | .boolean _ | .text _ | .symbol _ | .dish _ => by simp [natives]
  | .list h => by simpa only [natives] using AllMatch.natives_allowed h
  | .lambda _ _ hbody _ => by simpa only [natives] using hbody.natives_allowed
  | .native _ hf => by simpa [natives] using hf

theorem AllMatch.natives_allowed {vs ws : List Value} :
    AllMatch M allowed vs ws → ∀ f ∈ nativesAll ws, allowed f
  | .nil => by simp [nativesAll]
  | .cons h hs => by
      simp only [nativesAll, List.mem_append, or_imp, forall_and]
      exact ⟨h.natives_allowed, AllMatch.natives_allowed hs⟩

end

mutual

theorem Matches.eq_of_same {v w : Value} : Matches .same allowed v w → v = w
  | .number _ | .boolean _ | .text _ | .symbol _ => rfl
  | .list h => congrArg Value.list (AllMatch.eq_of_same h)
  | .dish hk => congrArg Value.dish hk
  | .lambda params hid hbody hframe => by
      cases hid
      cases hframe
      rw [hbody.eq_of_same]
  | .native hid _ => by
      cases hid
      rfl

theorem AllMatch.eq_of_same {vs ws : List Value} : AllMatch .same allowed vs ws → vs = ws
  | .nil => rfl
  | .cons h hs => by rw [h.eq_of_same, AllMatch.eq_of_same hs]

end

end Value

end Bakehouse
