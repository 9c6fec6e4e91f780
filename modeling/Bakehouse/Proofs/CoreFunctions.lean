import Bakehouse.Proofs.Lexing
import Bakehouse.Proofs.Registration

namespace Bakehouse

/-- What the functions of the core prelude rely on: themselves and four builtins. -/
inductive CoreName where
  | map
  | reduce
  | isEmpty
  | first
  | rest
  | cons
deriving DecidableEq

namespace CoreName

def symbol : CoreName → Symbol
  | map => ⟨"map", by decide⟩
  | reduce => ⟨"reduce", by decide⟩
  | isEmpty => Builtin.isEmpty.symbol
  | first => Builtin.first.symbol
  | rest => Builtin.rest.symbol
  | cons => Builtin.cons.symbol

/-- The parameters of the two functions. -/
def f : Symbol := ⟨"f", by decide⟩

def acc : Symbol := ⟨"acc", by decide⟩

def lis : Symbol := ⟨"lis", by decide⟩

abbrev call (x : Symbol) (args : List Value) : Value :=
  .list (.symbol x :: args)

abbrev choose (yes no : Value) : Value :=
  .list [.symbol ⟨"if", by decide⟩, call isEmpty.symbol [.symbol lis], yes, no]

def mapEmpty : Value :=
  .list [.symbol .quote, .list []]

def mapNext : Value :=
  call cons.symbol [call f [call first.symbol [.symbol lis]],
    call map.symbol [.symbol f, call rest.symbol [.symbol lis]]]

def mapBody : Value :=
  choose mapEmpty mapNext

def reduceNext : Value :=
  call f [call first.symbol [.symbol lis],
    call reduce.symbol [.symbol f, .symbol acc, call rest.symbol [.symbol lis]]]

def reduceBody : Value :=
  choose (.symbol acc) reduceNext

/-- What the name stands for in the base frame, up to the identity of the function. -/
def value (id : Nat) : CoreName → Value
  | map => .lambda id [f, lis] mapBody baseFrame
  | reduce => .lambda id [f, acc, lis] reduceBody baseFrame
  | isEmpty => .native id (.builtin .isEmpty)
  | first => .native id (.builtin .first)
  | rest => .native id (.builtin .rest)
  | cons => .native id (.builtin .cons)

end CoreName

namespace Store

def after {α : Type} (s : Store) (m : Run α) : Store :=
  (m s).2

/-- The store of an interpreter that has run the core prelude. -/
def withCore (characters : Pattern.CharacterNames) : Store :=
  (initial characters).after (evalPrelude 1 coreSource)

/-- The base frame has the functions of the core prelude. -/
def HasCore (s : Store) : Prop :=
  ∀ c : CoreName, ∃ id, s.scopes.own? baseFrame c.symbol = some (c.value id)

end Store

mutual

def Form.spells : Form → Value → Bool
  | .symbol x, .symbol y => x = y
  | .list fs, .list vs => spellsAll fs vs
  | _, _ => false

def Form.spellsAll : List Form → List Value → Bool
  | [], [] => true
  | f :: fs, v :: vs => f.spells v && spellsAll fs vs
  | _, _ => false

end

mutual

theorem Form.load_of_spells (s : Store) :
    ∀ {f : Form} {v : Value}, f.spells v = true → f.load s = (.ok v, s)
  | .symbol x, .symbol y, h => by
      simp only [spells, decide_eq_true_eq] at h
      rw [h]
      rfl
  | .list fs, .list vs, h => by
      simp only [spells] at h
      simp only [load]
      exact Run.bind_apply_ok (loadAll_of_spells s h)

theorem Form.loadAll_of_spells (s : Store) :
    ∀ {fs : List Form} {vs : List Value}, Form.spellsAll fs vs = true →
      Form.loadAll fs s = (.ok vs, s)
  | [], [], _ => rfl
  | f :: fs, v :: vs, h => by
      simp only [spellsAll, Bool.and_eq_true] at h
      simp only [loadAll]
      rw [Run.bind_apply_ok (load_of_spells s h.1), Run.bind_apply_ok (loadAll_of_spells s h.2)]
      rfl

end

namespace Form

theorem eq_of_spells_symbol {f : Form} {x : Symbol} (h : f.spells (.symbol x) = true) :
    f = .symbol x := by
  cases f with
  | symbol y =>
      simp only [spells, decide_eq_true_eq] at h
      rw [h]
  | _ => cases h

theorem exists_of_spells_list {f : Form} {vs : List Value} (h : f.spells (.list vs) = true) :
    ∃ fs, f = .list fs ∧ spellsAll fs vs = true := by
  cases f with
  | list fs => exact ⟨fs, rfl, by simpa only [spells] using h⟩
  | _ => cases h

theorem exists_of_spellsAll_cons {fs : List Form} {v : Value} {vs : List Value}
    (h : spellsAll fs (v :: vs) = true) :
    ∃ f gs, fs = f :: gs ∧ f.spells v = true ∧ spellsAll gs vs = true := by
  cases fs with
  | nil => cases h
  | cons f gs => exact ⟨f, gs, rfl, by simpa only [spellsAll, Bool.and_eq_true] using h⟩

theorem eq_nil_of_spellsAll {fs : List Form} (h : spellsAll fs [] = true) : fs = [] := by
  cases fs with
  | nil => rfl
  | cons f fs => cases h

theorem eq_of_spellsAll_symbols {fs : List Form} {xs : List Symbol}
    (h : spellsAll fs (xs.map .symbol) = true) : fs = xs.map .symbol := by
  induction xs generalizing fs with
  | nil => exact eq_nil_of_spellsAll h
  | cons x xs ih =>
      obtain ⟨f, gs, rfl, hf, hgs⟩ := exists_of_spellsAll_cons h
      rw [eq_of_spells_symbol hf, ih hgs]
      rfl

end Form

def definition (x : Symbol) (params : List Symbol) (body : Value) : Value :=
  CoreName.call ⟨"defn", by decide⟩ [.symbol x, .list (params.map .symbol), body]

/-- Whether a text was read as two forms that spell the given values. -/
def spellsTwo (v w : Value) : List Form × Option ReadError → Bool
  | ([f, g], none) => f.spells v && g.spells w
  | _ => false

theorem eq_of_spellsTwo {v w : Value} {r : List Form × Option ReadError}
    (h : spellsTwo v w r = true) :
    ∃ f g, r = ([f, g], none) ∧ f.spells v = true ∧ g.spells w = true := by
  unfold spellsTwo at h
  split at h
  · exact ⟨_, _, rfl, Bool.and_eq_true_iff.mp h⟩
  · cases h

set_option maxRecDepth 4000 in
theorem spellsTwo_coreSource :
    spellsTwo (definition CoreName.map.symbol [CoreName.f, CoreName.lis] CoreName.mapBody)
      (definition CoreName.reduce.symbol [CoreName.f, CoreName.acc, CoreName.lis]
        CoreName.reduceBody)
      (readAll coreSource) = true := by
  have hlex : lex coreSource = _ := lex_ofList _
  simp only [readAll, hlex]
  decide +kernel

theorem parameters_symbols (xs : List Symbol) (s : Store) :
    SpecialForm.parameters (.list (xs.map .symbol)) s = (.ok xs, s) := by
  simp only [SpecialForm.parameters, Run.get_bind_apply]
  induction xs with
  | nil => rfl
  | cons x xs ih =>
      simp only [List.map_cons, List.mapM_cons, pure_bind]
      exact Run.bind_apply_ok ih

def Store.defined (s : Store) (frame : FrameId) (x : Symbol) (params : List Symbol) (body : Value) :
    Store :=
  { s with
    scopes := s.scopes.define frame x (.lambda s.fresh params body frame)
    fresh := s.fresh + 1 }

theorem evaluate_definition (n : Nat) (x : Symbol) (params : List Symbol) (body : Value)
    (frame : FrameId) (s : Store) :
    evaluate (n + 1) (definition x params body) frame s =
      (.ok (.symbol x), s.defined frame x params body) := by
  have hhead : SpecialForm.ofHead? (.symbol ⟨"defn", by decide⟩) = some .defineFunction := by decide
  have hlambda : SpecialForm.makeLambda (.list (params.map .symbol)) body frame s =
      (.ok (.lambda s.fresh params body frame), { s with fresh := s.fresh + 1 }) :=
    Run.bind_apply_ok (parameters_symbols params s)
  simp only [evaluate_succ, definition, evaluateStep, hhead, SpecialForm.eval,
    SpecialForm.evalDefineFunction, SpecialForm.expectSymbol, pure_bind]
  exact Run.bind_apply_ok hlambda

theorem runForms_definition {f : Form} {x : Symbol} {params : List Symbol} {body : Value}
    (hf : f.spells (definition x params body) = true) (n : Nat) (last : Option Value)
    (forms : List Form) (error : Option ReadError) (frame : FrameId) (s : Store) :
    runForms (fun v => evaluate (n + 1) v frame) last (f :: forms) error s =
      runForms (fun v => evaluate (n + 1) v frame) (some (.symbol x)) forms error
        (s.defined frame x params body) := by
  simp only [runForms]
  rw [Run.bind_apply_ok (Form.load_of_spells s hf),
    Run.bind_apply_ok (evaluate_definition n x params body frame s)]

def Store.bindsBuiltin (s : Store) (b : Builtin) : Bool :=
  match s.scopes.own? baseFrame b.symbol with
  | some (.native _ (.builtin c)) => b = c
  | _ => false

theorem Store.own?_of_bindsBuiltin {s : Store} {b : Builtin} (h : s.bindsBuiltin b = true) :
    ∃ id, s.scopes.own? baseFrame b.symbol = some (.native id (.builtin b)) := by
  unfold bindsBuiltin at h
  split at h
  · rename_i id c hown
    rw [of_decide_eq_true h]
    exact ⟨id, (of_decide_eq_true h) ▸ hown⟩
  · cases h

theorem Store.exists_own?_initial (characters : Pattern.CharacterNames) (b : Builtin) :
    ∃ id, (initial characters).scopes.own? baseFrame b.symbol =
      some (.native id (.builtin b)) := by
  have hall : ∀ b ∈ Builtin.all, withBuiltins.bindsBuiltin b = true := by decide +kernel
  obtain ⟨id, hid⟩ := own?_of_bindsBuiltin (hall b (by cases b <;> decide))
  exact ⟨id, (own?_initial characters b).trans hid⟩

theorem evalPrelude_definitions {code : String} {x y : Symbol} {params params' : List Symbol}
    {body body' : Value}
    (h : spellsTwo (definition x params body) (definition y params' body') (readAll code) = true)
    (s : Store) :
    s.after (evalPrelude 1 code) =
      (s.defined baseFrame x params body).defined baseFrame y params' body' := by
  obtain ⟨f, g, hread, hf, hg⟩ := eq_of_spellsTwo h
  simp only [Store.after, evalPrelude, evalText, runSource, hread, Run.bind_apply]
  rw [runForms_definition hf 0, runForms_definition hg 0]
  rfl

theorem Store.withCore_eq (characters : Pattern.CharacterNames) :
    withCore characters =
      ((initial characters).defined baseFrame CoreName.map.symbol [CoreName.f, CoreName.lis]
        CoreName.mapBody).defined baseFrame CoreName.reduce.symbol
          [CoreName.f, CoreName.acc, CoreName.lis] CoreName.reduceBody :=
  evalPrelude_definitions spellsTwo_coreSource (initial characters)

theorem Store.hasCore_withCore (characters : Pattern.CharacterNames) :
    (withCore characters).HasCore := by
  have hbase : baseFrame < (initial characters).scopes.frames.size :=
    let ⟨_, hframe, _⟩ := founded_initial characters
    (Array.getElem?_eq_some_iff.mp hframe).1
  -- A builtin is not touched by the two definitions.
  have hbuiltin (b : Builtin) (hmap : CoreName.map.symbol ≠ b.symbol)
      (hreduce : CoreName.reduce.symbol ≠ b.symbol) :
      ∃ id, (withCore characters).scopes.own? baseFrame b.symbol =
        some (.native id (.builtin b)) := by
    obtain ⟨id, hid⟩ := exists_own?_initial characters b
    refine ⟨id, ?_⟩
    simp only [withCore_eq, defined]
    rw [Scopes.own?_define_of_ne _ _ hreduce, Scopes.own?_define_of_ne _ _ hmap, hid]
  intro c
  cases c with
  | map =>
      refine ⟨(initial characters).fresh, ?_⟩
      simp only [withCore_eq, defined]
      rw [Scopes.own?_define_of_ne _ _ (by decide), Scopes.own?_define_self _ hbase]
      rfl
  | reduce =>
      refine ⟨(initial characters).fresh + 1, ?_⟩
      simp only [withCore_eq, defined]
      rw [Scopes.own?_define_self _ (by rwa [Scopes.size_define])]
      rfl
  | isEmpty => exact hbuiltin .isEmpty (by decide) (by decide)
  | first => exact hbuiltin .first (by decide) (by decide)
  | rest => exact hbuiltin .rest (by decide) (by decide)
  | cons => exact hbuiltin .cons (by decide) (by decide)

end Bakehouse
