import Bakehouse.Language.SpecialForm
import Bakehouse.Proofs.Matching

namespace Bakehouse

namespace Value

mutual

/-- The names that may be looked up when a value is evaluated as code. -/
def lookups : Value → List Symbol
  | .symbol x => [x]
  | .list (head :: tail) =>
    match SpecialForm.ofHead? head with
    | some .quote => []
    | some _ => lookupsAll tail
    | none => lookups head ++ lookupsAll tail
  | _ => []

def lookupsAll : List Value → List Symbol
  | [] => []
  | v :: vs => lookups v ++ lookupsAll vs

end

theorem mem_lookupsAll {x : Symbol} {vs : List Value} :
    x ∈ lookupsAll vs ↔ ∃ v ∈ vs, x ∈ v.lookups := by
  induction vs with
  | nil => simp [lookupsAll]
  | cons v vs ih => simp [lookupsAll, ih]

theorem lookups_application {head : Value} {tail : List Value}
    (hhead : SpecialForm.ofHead? head = none) :
    (Value.list (head :: tail)).lookups = lookupsAll (head :: tail) := by
  simp only [lookups, lookupsAll, hhead]

theorem lookups_specialForm {head : Value} {tail : List Value} {form : SpecialForm}
    (hhead : SpecialForm.ofHead? head = some form) (hquote : form ≠ .quote) :
    (Value.list (head :: tail)).lookups = lookupsAll tail := by
  cases form with
  | quote => exact absurd rfl hquote
  | _ => simp only [lookups, hhead]

end Value

namespace Form

/-- The special form that a list with this head is read as. -/
def specialForm? : Form → Option SpecialForm
  | .symbol x => SpecialForm.ofName? x.name
  | _ => none

mutual

/-- The names that may be looked up when the form is evaluated. -/
def lookups : Form → List Symbol
  | .symbol x => [x]
  | .list (head :: tail) =>
    match head.specialForm? with
    | some .quote => []
    | some _ => lookupsAll tail
    | none => lookups head ++ lookupsAll tail
  | _ => []

def lookupsAll : List Form → List Symbol
  | [] => []
  | f :: fs => lookups f ++ lookupsAll fs

end

end Form

namespace Value

/-- Matching values, in which all native functions are `allowed` ones and the other functions look
up `known` names only. -/
inductive Agrees (M : Matching) (allowed : Native → Prop) (known : Symbol → Prop) :
    Value → Value → Prop
  | number (x : Float) : Agrees M allowed known (.number x) (.number x)
  | boolean (b : Bool) : Agrees M allowed known (.boolean b) (.boolean b)
  | text (s : String) : Agrees M allowed known (.text s) (.text s)
  | symbol (x : Symbol) : Agrees M allowed known (.symbol x) (.symbol x)
  | list {vs ws : List Value} (h : List.Forall₂ (Agrees M allowed known) vs ws) :
      Agrees M allowed known (.list vs) (.list ws)
  | dish {h k : Handle} (hk : M.handle h k) : Agrees M allowed known (.dish h) (.dish k)
  | lambda {a b : Nat} {i j : FrameId} {body body' : Value} (params : List Symbol)
      (hid : M.identity a b) (hnames : ∀ x ∈ body.lookups, known x)
      (hbody : Agrees M allowed known body body') (hframe : M.frame i j) :
      Agrees M allowed known (.lambda a params body i) (.lambda b params body' j)
  | native {a b : Nat} {f : Native} (hid : M.identity a b) (hf : allowed f) :
      Agrees M allowed known (.native a f) (.native b f)

abbrev AllAgree (M : Matching) (allowed : Native → Prop) (known : Symbol → Prop) :
    List Value → List Value → Prop :=
  List.Forall₂ (Agrees M allowed known)

variable {M N : Matching} {allowed : Native → Prop} {known : Symbol → Prop}

theorem Agrees.nil : Agrees M allowed known Value.nil Value.nil :=
  .symbol _

mutual

theorem Agrees.mono (hMN : M ≤ N) {v w : Value} :
    Agrees M allowed known v w → Agrees N allowed known v w
  | .number x => .number x
  | .boolean b => .boolean b
  | .text s => .text s
  | .symbol x => .symbol x
  | .list h => .list (AllAgree.mono hMN h)
  | .dish hk => .dish (hMN.handle hk)
  | .lambda params hid hnames hbody hframe =>
      .lambda params (hMN.identity hid) hnames (hbody.mono hMN) (hMN.frame hframe)
  | .native hid hf => .native (hMN.identity hid) hf

theorem AllAgree.mono (hMN : M ≤ N) {vs ws : List Value} :
    AllAgree M allowed known vs ws → AllAgree N allowed known vs ws
  | .nil => .nil
  | .cons h hs => .cons (h.mono hMN) (AllAgree.mono hMN hs)

end

mutual

theorem Agrees.matches {v w : Value} : Agrees M allowed known v w → Matches M allowed v w
  | .number x => .number x
  | .boolean b => .boolean b
  | .text s => .text s
  | .symbol x => .symbol x
  | .list h => .list (AllAgree.allMatch h)
  | .dish hk => .dish hk
  | .lambda params hid _ hbody hframe => .lambda params hid hbody.matches hframe
  | .native hid hf => .native hid hf

theorem AllAgree.allMatch {vs ws : List Value} :
    AllAgree M allowed known vs ws → AllMatch M allowed vs ws
  | .nil => .nil
  | .cons h hs => .cons h.matches (AllAgree.allMatch hs)

end

mutual

/-- Where all names are known, values agree as soon as they match. -/
theorem Matches.agrees (hknown : ∀ x, known x) {v w : Value} :
    Matches M allowed v w → Agrees M allowed known v w
  | .number x => .number x
  | .boolean b => .boolean b
  | .text s => .text s
  | .symbol x => .symbol x
  | .list h => .list (AllMatch.allAgree hknown h)
  | .dish hk => .dish hk
  | .lambda params hid hbody hframe =>
      .lambda params hid (fun x _ => hknown x) (hbody.agrees hknown) hframe
  | .native hid hf => .native hid hf

theorem AllMatch.allAgree (hknown : ∀ x, known x) {vs ws : List Value} :
    AllMatch M allowed vs ws → AllAgree M allowed known vs ws
  | .nil => .nil
  | .cons h hs => .cons (h.agrees hknown) (AllMatch.allAgree hknown hs)

end

theorem Agrees.ofHead?_eq {v w : Value} (h : Agrees M allowed known v w) :
    SpecialForm.ofHead? v = SpecialForm.ofHead? w := by
  cases h <;> rfl

theorem AllAgree.all_isFunction_eq {vs ws : List Value} (h : AllAgree M allowed known vs ws) :
    vs.all (·.isFunction) = ws.all (·.isFunction) :=
  AllMatch.all_isFunction_eq (AllAgree.allMatch h)

end Value

end Bakehouse
