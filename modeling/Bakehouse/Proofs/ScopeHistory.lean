import Bakehouse.Proofs.Bindings
import Bakehouse.Proofs.Comparison

/-!
Scopes by their history. Frames are added inside others and names are defined in them, at several
levels and in any order, and what a lookup sees depends on all of it. The history is the list of the
definitions that were made. Which frame answers for a name, and with which value, can be read off
the history and the way in which the frames were added.
-/

namespace Bakehouse

/-- A name that is defined in a frame. -/
structure Binding where
  frame : FrameId
  name : Symbol
  value : Value

/-- The value that a name gets in a frame, if it is this name and this frame. -/
def Binding.value? (d : Binding) (j : FrameId) (x : Symbol) : Option Value :=
  if d.frame = j ∧ d.name = x then some d.value else none

/-- Definitions, the oldest first. -/
abbrev History := List Binding

namespace History

/-- The name was defined in the frame at some time. -/
def Defines (history : History) (j : FrameId) (x : Symbol) : Prop :=
  ∃ v, ⟨j, x, v⟩ ∈ history

/-- The value is the one that the name was given last in the frame. -/
def Latest (history : History) (j : FrameId) (x : Symbol) (v : Value) : Prop :=
  ∃ before after : History, history = before ++ ⟨j, x, v⟩ :: after ∧ ¬ after.Defines j x

/-- The frame is the first one on the way outward in which the name was ever defined. -/
def Nearest (history : History) (way : List FrameId) (x : Symbol) (j : FrameId) : Prop :=
  ∃ inner outer, way = inner ++ j :: outer ∧ history.Defines j x ∧
    ∀ k ∈ inner, ¬ history.Defines k x

def latest? (history : History) (j : FrameId) (x : Symbol) : Option Value :=
  history.reverse.findSome? (·.value? j x)

end History

theorem Binding.value?_eq_some_iff {d : Binding} {j : FrameId} {x : Symbol} {v : Value} :
    d.value? j x = some v ↔ d = ⟨j, x, v⟩ := by
  obtain ⟨frame, name, value⟩ := d
  simp [value?, and_assoc]

namespace History

variable {history : History} {j : FrameId} {x : Symbol}

theorem latest?_append (earlier later : History) (j : FrameId) (x : Symbol) :
    latest? (earlier ++ later) j x = (latest? later j x).or (latest? earlier j x) := by
  simp only [latest?, List.reverse_append, List.findSome?_append]

theorem latest?_eq_none_iff : latest? history j x = none ↔ ¬ Defines history j x := by
  simp only [latest?, List.findSome?_eq_none_iff, List.mem_reverse]
  constructor
  · rintro hnone ⟨v, hv⟩
    have hvalue := hnone _ hv
    rw [Binding.value?_eq_some_iff.mpr rfl] at hvalue
    cases hvalue
  · intro hdefines d hd
    rw [Option.eq_none_iff_forall_ne_some]
    intro v hvalue
    rw [Binding.value?_eq_some_iff] at hvalue
    exact hdefines ⟨v, hvalue ▸ hd⟩

theorem latest?_eq_some_iff {v : Value} : latest? history j x = some v ↔ Latest history j x v := by
  constructor
  · intro hlatest
    obtain ⟨after, d, before, hsplit, hd, hafter⟩ := List.findSome?_eq_some_iff.mp hlatest
    obtain rfl := Binding.value?_eq_some_iff.mp hd
    refine ⟨before.reverse, after.reverse, ?_, ?_⟩
    · rw [← List.reverse_reverse history, hsplit]
      simp
    · rw [← latest?_eq_none_iff, latest?, List.reverse_reverse, List.findSome?_eq_none_iff]
      exact hafter
  · rintro ⟨before, after, rfl, hafter⟩
    rw [← latest?_eq_none_iff] at hafter
    have hlast : latest? [⟨j, x, v⟩] j x = some v := by
      simp [latest?, Binding.value?]
    rw [latest?_append, ← List.singleton_append, latest?_append, hafter, hlast]
    rfl

theorem isSome_latest?_iff : (latest? history j x).isSome = true ↔ Defines history j x := by
  rw [← not_iff_not, ← latest?_eq_none_iff]
  simp

end History

/-- What can be done to scopes: a frame is added inside another, a name is defined in a frame, or a
frame takes over a table of definitions. -/
inductive ScopeStep where
  | push (outer : FrameId)
  | define (frame : FrameId) (name value : Value)
  | update (frame : FrameId) (pairs : List (Value × Value))

namespace ScopeStep

def run : ScopeStep → Run Unit
  | push outer => discard (pushFrame outer)
  | define frame name v => defineAs frame name v
  | update frame pairs => defineTable frame pairs

/-- The store after steps, whether they have succeeded or not. -/
def runAll (steps : List ScopeStep) (s : Store) : Store :=
  steps.foldl (fun s step => (step.run s).2) s

/-- The frame that a step goes to. -/
def frame : ScopeStep → FrameId
  | push outer => outer
  | define frame _ _ => frame
  | update frame _ => frame

def outer? : ScopeStep → Option FrameId
  | push outer => some outer
  | _ => none

/-- The frames around the frames that are added, in the order in which they are added. -/
def outers (steps : List ScopeStep) : List FrameId :=
  steps.filterMap outer?

/-- The entries of a table before the first one whose name is no symbol. -/
def leading (frame : FrameId) : List (Value × Value) → History
  | (.symbol x, v) :: table => ⟨frame, x, v⟩ :: leading frame table
  | _ => []

/-- The table that pairs make up; a symbol that comes up again keeps its place. -/
def table (pairs : List (Value × Value)) : List (Value × Value) :=
  pairs.foldl (fun table e => collect table e.1 e.2) []

/-- The definitions that a step succeeds in making. -/
def definitions : ScopeStep → History
  | push _ => []
  | define frame name v => leading frame [(name, v)]
  | update frame pairs => leading frame (table pairs)

def history (steps : List ScopeStep) : History :=
  steps.flatMap definitions

/-- Steps that go to frames that are there: the base frame, and one more for every frame added. -/
inductive Admissible : List ScopeStep → Prop
  | nil : Admissible []
  | snoc {steps : List ScopeStep} {step : ScopeStep} :
      Admissible steps → step.frame ≤ (outers steps).length → Admissible (steps ++ [step])

/-- The way from a frame outward to the base, as the frames were added: the frame that was added
first is frame one, and so on. -/
inductive Way (outers : List FrameId) : FrameId → List FrameId → Prop
  | base : Way outers 0 [0]
  | child {k : Nat} {outer : FrameId} {way : List FrameId} :
      outers[k]? = some outer → Way outers outer way → Way outers (k + 1) ((k + 1) :: way)

theorem Way.unique {outers : List FrameId} {i : FrameId} {way way' : List FrameId}
    (h : Way outers i way) (h' : Way outers i way') : way = way' := by
  induction h generalizing way' with
  | base =>
      cases h'
      rfl
  | child houter _ ih =>
      cases h' with
      | child houter' h' =>
          obtain rfl := Option.some.inj (houter.symm.trans houter')
          rw [ih h']

theorem Way.le {outers : List FrameId} {i : FrameId} {way : List FrameId} (h : Way outers i way) :
    i ≤ outers.length := by
  cases h with
  | base => exact Nat.zero_le _
  | child houter _ =>
      obtain ⟨hlt, _⟩ := List.getElem?_eq_some_iff.mp houter
      exact hlt

/-- Ways stay as they are when more frames are added. -/
theorem Way.append {outers : List FrameId} {i : FrameId} {way : List FrameId}
    (h : Way outers i way) (more : List FrameId) : Way (outers ++ more) i way := by
  induction h with
  | base => exact .base
  | child houter _ ih =>
      refine .child ?_ ih
      obtain ⟨hlt, _⟩ := List.getElem?_eq_some_iff.mp houter
      rw [List.getElem?_append_left hlt, houter]

end ScopeStep

namespace Scopes

/-- Scopes after definitions, one after another. -/
def record (s : Scopes Value) (history : History) : Scopes Value :=
  history.foldl (fun s d => s.define d.frame d.name d.value) s

@[simp] theorem size_record (s : Scopes Value) (history : History) :
    (s.record history).frames.size = s.frames.size := by
  induction history generalizing s with
  | nil => rfl
  | cons d history ih => exact (ih _).trans (s.size_define d.frame d.name d.value)

@[simp] theorem chain_record (s : Scopes Value) (history : History) (i : FrameId) :
    (s.record history).chain i = s.chain i := by
  induction history generalizing s with
  | nil => rfl
  | cons d history ih => exact (ih _).trans (s.chain_define d.frame d.name d.value i)

theorem own?_define (s : Scopes Value) {d : Binding} (hd : d.frame < s.frames.size) (j : FrameId)
    (x : Symbol) :
    (s.define d.frame d.name d.value).own? j x = (d.value? j x).or (s.own? j x) := by
  obtain ⟨frame, y, v⟩ := d
  simp only [Binding.value?]
  split
  · rename_i heq
    obtain ⟨rfl, rfl⟩ := heq
    exact s.own?_define_self hd y v
  · rename_i hne
    rw [Option.none_or]
    exact s.own?_define_of_not hne v

theorem own?_record {s : Scopes Value} {history : History}
    (hframes : ∀ d ∈ history, d.frame < s.frames.size) (j : FrameId) (x : Symbol) :
    (s.record history).own? j x = (history.latest? j x).or (s.own? j x) := by
  induction history generalizing s with
  | nil => rfl
  | cons d history ih =>
      obtain ⟨hd, hrest⟩ := List.forall_mem_cons.mp hframes
      have hlater : ∀ e ∈ history, e.frame < (s.define d.frame d.name d.value).frames.size := by
        rwa [size_define]
      have hfirst : History.latest? [d] j x = d.value? j x := by
        simp [History.latest?]
      calc ((s.define d.frame d.name d.value).record history).own? j x
          = (History.latest? history j x).or ((d.value? j x).or (s.own? j x)) := by
            rw [ih hlater, own?_define s hd]
        _ = (History.latest? ([d] ++ history) j x).or (s.own? j x) := by
            rw [History.latest?_append, hfirst, Option.or_assoc]

/-- Adding a frame changes nothing about the others, and it has no definitions of its own. -/
theorem own?_push (s : Scopes Value) (outer j : FrameId) (x : Symbol) :
    (s.push outer).1.own? j x = s.own? j x := by
  simp only [own?, frames_push, Array.getElem?_push]
  split
  · rename_i hj
    subst hj
    simp [Frame.get?]
  · rfl

theorem chain_push_size (s : Scopes Value) (outer : FrameId) :
    (s.push outer).1.chain s.frames.size = s.frames.size :: s.chain outer := by
  simp only [chain, frames_push, Array.getElem?_push_size]

/-- A definition changes a lookup only if it is of that name, on the way outward, and nearer than
anything that the name meant before. -/
theorem nearest_of_lookup?_define_ne {s : Scopes Value} {i j : FrameId} {x y : Symbol} {v : Value}
    (hne : (s.define j y v).lookup? i x ≠ s.lookup? i x) :
    y = x ∧ ∃ inner outer, s.chain i = inner ++ j :: outer ∧ ∀ k ∈ inner, s.own? k x = none := by
  simp only [lookup?, chain_define] at hne
  generalize s.chain i = way at hne
  induction way with
  | nil => exact absurd rfl hne
  | cons k way ih =>
      by_cases hhere : j = k ∧ y = x
      · obtain ⟨rfl, rfl⟩ := hhere
        exact ⟨rfl, [], way, rfl, List.forall_mem_nil _⟩
      · rw [List.findSome?_cons, List.findSome?_cons, s.own?_define_of_not hhere v] at hne
        cases hown : s.own? k x with
        | some w =>
            rw [hown] at hne
            exact absurd rfl hne
        | none =>
            rw [hown] at hne
            obtain ⟨rfl, inner, outer, rfl, hinner⟩ := ih hne
            exact ⟨rfl, k :: inner, outer, rfl, List.forall_mem_cons.mpr ⟨hown, hinner⟩⟩

end Scopes

theorem Value.symbol_or (name : Value) : (∃ x, name = .symbol x) ∨ ∀ x, name ≠ .symbol x := by
  rw [← not_exists]
  exact em _

namespace ScopeStep

theorem defineAs_symbol (frame : FrameId) (x : Symbol) (v : Value) (s : Store) :
    defineAs frame (.symbol x) v s = (.ok (), { s with scopes := s.scopes.define frame x v }) := rfl

theorem defineAs_of_not_symbol {name : Value} (hname : ∀ x, name ≠ .symbol x) (frame : FrameId)
    (v : Value) (s : Store) : defineAs frame name v s =
      (.error (.error (.type (.symbolExpected (name.bare s.dish)))), s) := by
  cases name with
  | symbol x => exact absurd rfl (hname x)
  | _ => rfl

theorem lookupFrom_apply (frame : FrameId) (x : Symbol) (s : Store) :
    lookupFrom frame x s =
      (match s.scopes.lookup? frame x with
        | some v => .ok v
        | none => .error (.error (.unbound x.name)), s) := by
  simp only [lookupFrom, Run.get_bind_apply]
  cases s.scopes.lookup? frame x <;> rfl

theorem lookupFrom_eq_ok_iff {frame : FrameId} {x : Symbol} {s : Store} {v : Value} :
    lookupFrom frame x s = (.ok v, s) ↔ s.scopes.lookup? frame x = some v := by
  rw [lookupFrom_apply]
  cases s.scopes.lookup? frame x with
  | none => exact ⟨nofun, nofun⟩
  | some w =>
      constructor
      · rintro ⟨⟩
        rfl
      · rintro ⟨⟩
        rfl

theorem lookupFrom_eq_error_iff {frame : FrameId} {x : Symbol} {s : Store} :
    lookupFrom frame x s = (.error (.error (.unbound x.name)), s) ↔
      s.scopes.lookup? frame x = none := by
  rw [lookupFrom_apply]
  cases s.scopes.lookup? frame x with
  | none => exact ⟨fun _ => rfl, fun _ => rfl⟩
  | some w => exact ⟨nofun, nofun⟩

theorem leading_of_not_symbol {name : Value} (hname : ∀ x, name ≠ .symbol x) (frame : FrameId)
    (v : Value) (table : List (Value × Value)) : leading frame ((name, v) :: table) = [] := by
  cases name with
  | symbol x => exact absurd rfl (hname x)
  | _ => rfl

/-- A table is gone through up to the first name that is no symbol. -/
theorem defines_snd (frame : FrameId) (table : List (Value × Value)) (s : Store) :
    ((table.forM fun e => defineAs frame e.1 e.2) s).2 =
      { s with scopes := s.scopes.record (leading frame table) } := by
  induction table generalizing s with
  | nil => rfl
  | cons e table ih =>
      obtain ⟨name, v⟩ := e
      change ((defineAs frame name v >>= fun _ => table.forM fun e =>
        defineAs frame e.1 e.2) s).2 = _
      obtain ⟨x, rfl⟩ | hname := name.symbol_or
      · rw [Run.bind_apply_ok (defineAs_symbol frame x v s), ih]
        rfl
      · rw [Run.bind_apply_error (defineAs_of_not_symbol hname frame v s),
          leading_of_not_symbol hname]
        rfl

theorem run_snd_of_outer?_eq_none {step : ScopeStep} (hstep : step.outer? = none) (s : Store) :
    (step.run s).2 = { s with scopes := s.scopes.record step.definitions } := by
  cases step with
  | push outer => cases hstep
  | define frame name v =>
      obtain ⟨x, rfl⟩ | hname := name.symbol_or
      · rfl
      · rw [run, defineAs_of_not_symbol hname, definitions, leading_of_not_symbol hname]
        rfl
  | update frame pairs => exact defines_snd frame (table pairs) s

theorem frame_eq_of_mem_leading {frame : FrameId} {table : List (Value × Value)} {d : Binding}
    (hd : d ∈ leading frame table) : d.frame = frame := by
  induction table with
  | nil => cases hd
  | cons e table ih =>
      obtain ⟨name, v⟩ := e
      obtain ⟨x, rfl⟩ | hname := name.symbol_or
      · rcases List.mem_cons.mp hd with rfl | hd
        · rfl
        · exact ih hd
      · rw [leading_of_not_symbol hname] at hd
        cases hd

theorem frame_eq_of_mem_definitions {step : ScopeStep} {d : Binding}
    (hd : d ∈ step.definitions) : d.frame = step.frame := by
  cases step with
  | push outer => cases hd
  | define frame name v => exact frame_eq_of_mem_leading hd
  | update frame pairs => exact frame_eq_of_mem_leading hd

theorem runAll_append (steps more : List ScopeStep) (s : Store) :
    runAll (steps ++ more) s = runAll more (runAll steps s) :=
  List.foldl_append

theorem history_snoc (steps : List ScopeStep) (step : ScopeStep) :
    history (steps ++ [step]) = history steps ++ step.definitions := by
  simp [history]

/-- The scopes are what the steps have made of a base frame. -/
structure Records (steps : List ScopeStep) (s : Scopes Value) : Prop where
  size : s.frames.size = (outers steps).length + 1
  way : ∀ i ≤ (outers steps).length, Way (outers steps) i (s.chain i)
  own : ∀ j x, s.own? j x = (history steps).latest? j x

namespace Records

variable {steps : List ScopeStep} {s : Scopes Value}

theorem base : Records [] .base where
  size := rfl
  way i hi := by
    obtain rfl := Nat.le_zero.mp hi
    exact .base
  own j x := by
    cases j <;> rfl

theorem push (h : Records steps s) {outer : FrameId} (houter : outer ≤ (outers steps).length) :
    Records (steps ++ [.push outer]) (s.push outer).1 := by
  have houters : outers (steps ++ [.push outer]) = outers steps ++ [outer] := by
    simp [outers, outer?]
  constructor
  · simp [houters, h.size]
  · intro i hi
    rw [houters] at hi ⊢
    rw [List.length_append, List.length_singleton] at hi
    rcases Nat.le_succ_iff.mp hi with hi | rfl
    · have hlt : i < s.frames.size := by
        rw [h.size]
        exact Nat.lt_succ_of_le hi
      rw [Scopes.push, Scopes.chain_push _ hlt]
      exact (h.way i hi).append [outer]
    · have hlast : (outers steps ++ [outer])[(outers steps).length]? = some outer := by simp
      rw [Nat.succ_eq_add_one, ← h.size, Scopes.chain_push_size, h.size]
      exact .child hlast ((h.way outer houter).append [outer])
  · intro j x
    rw [Scopes.own?_push, h.own, history_snoc, definitions, List.append_nil]

theorem record (h : Records steps s) {step : ScopeStep} (hstep : step.outer? = none)
    (hframe : step.frame ≤ (outers steps).length) :
    Records (steps ++ [step]) (s.record step.definitions) := by
  have houters : outers (steps ++ [step]) = outers steps := by
    simp [outers, hstep]
  constructor
  · rw [Scopes.size_record, houters, h.size]
  · intro i hi
    rw [houters] at hi ⊢
    rw [Scopes.chain_record]
    exact h.way i hi
  · intro j x
    have hframes : ∀ d ∈ step.definitions, d.frame < s.frames.size := by
      intro d hd
      rw [frame_eq_of_mem_definitions hd, h.size]
      exact Nat.lt_succ_of_le hframe
    rw [Scopes.own?_record hframes, h.own, history_snoc, History.latest?_append]

theorem run {s : Store} (h : Records steps s.scopes) {step : ScopeStep}
    (hframe : step.frame ≤ (outers steps).length) :
    Records (steps ++ [step]) (step.run s).2.scopes := by
  cases step with
  | push outer => exact h.push hframe
  | define frame name v =>
      rw [run_snd_of_outer?_eq_none rfl]
      exact h.record rfl hframe
  | update frame pairs =>
      rw [run_snd_of_outer?_eq_none rfl]
      exact h.record rfl hframe

theorem chain_eq (h : Records steps s) {i : FrameId} {way : List FrameId}
    (hway : Way (outers steps) i way) : s.chain i = way :=
  (h.way i hway.le).unique hway

theorem own?_eq_none_iff (h : Records steps s) {j : FrameId} {x : Symbol} :
    s.own? j x = none ↔ ¬ (history steps).Defines j x := by
  rw [h.own, History.latest?_eq_none_iff]

section Lookup

variable {i : FrameId} {way : List FrameId} (hway : Way (outers steps) i way)
include hway

theorem find?_eq_some_iff (h : Records steps s) {x : Symbol} {j : FrameId} :
    s.find? i x = some j ↔ (history steps).Nearest way x j := by
  simp only [Scopes.find?, h.chain_eq hway, List.find?_eq_some_iff_append, History.Nearest, h.own,
    History.isSome_latest?_iff, Bool.not_eq_true', ← Bool.not_eq_true, ← exists_and_left]
  constructor
  · rintro ⟨inner, outer, hj, rfl, hinner⟩
    exact ⟨inner, outer, rfl, hj, hinner⟩
  · rintro ⟨inner, outer, rfl, hj, hinner⟩
    exact ⟨inner, outer, hj, rfl, hinner⟩

theorem lookup?_eq_some_iff (h : Records steps s) {x : Symbol} {v : Value} :
    s.lookup? i x = some v ↔
      ∃ j, (history steps).Nearest way x j ∧ (history steps).Latest j x v := by
  rw [Scopes.lookup?, h.chain_eq hway, List.findSome?_eq_some_iff]
  constructor
  · rintro ⟨inner, j, outer, rfl, hj, hinner⟩
    rw [h.own] at hj
    refine ⟨j, ⟨inner, outer, rfl, ?_, ?_⟩, History.latest?_eq_some_iff.mp hj⟩
    · rw [← History.isSome_latest?_iff, hj]
      rfl
    · intro k hk
      exact h.own?_eq_none_iff.mp (hinner k hk)
  · rintro ⟨j, ⟨inner, outer, rfl, _, hinner⟩, hlatest⟩
    refine ⟨inner, j, outer, rfl, ?_, ?_⟩
    · rw [h.own, History.latest?_eq_some_iff.mpr hlatest]
    · intro k hk
      exact h.own?_eq_none_iff.mpr (hinner k hk)

theorem lookup?_eq_none_iff (h : Records steps s) {x : Symbol} :
    s.lookup? i x = none ↔ ∀ k ∈ way, ¬ (history steps).Defines k x := by
  simp only [Scopes.lookup?, h.chain_eq hway, List.findSome?_eq_none_iff, h.own?_eq_none_iff]

/-- A definition that changes what a frame sees is of that name, and nothing nearer defines it. -/
theorem nearest_of_lookupFrom_ne {s : Store} (h : Records steps s.scopes) {x : Symbol} {j : FrameId}
    {name v : Value}
    (hne : (lookupFrom i x ((define j name v).run s).2).1 ≠ (lookupFrom i x s).1) :
    name = .symbol x ∧ ∃ inner outer, way = inner ++ j :: outer ∧
      ∀ k ∈ inner, ¬ (history steps).Defines k x := by
  obtain ⟨y, rfl⟩ | hname := name.symbol_or
  · have hlookup : (s.scopes.define j y v).lookup? i x ≠ s.scopes.lookup? i x := by
      intro heq
      apply hne
      rw [ScopeStep.run, defineAs_symbol]
      simp only [lookupFrom_apply, heq]
    obtain ⟨rfl, inner, outer, hsplit, hinner⟩ := Scopes.nearest_of_lookup?_define_ne hlookup
    refine ⟨rfl, inner, outer, ?_, ?_⟩
    · rw [← h.chain_eq hway, hsplit]
    · intro k hk
      exact h.own?_eq_none_iff.mp (hinner k hk)
  · rw [ScopeStep.run, defineAs_of_not_symbol hname] at hne
    exact absurd rfl hne

end Lookup

end Records

theorem Admissible.records {steps : List ScopeStep} (hsteps : Admissible steps) {start : Store}
    (hstart : start.scopes = .base) : Records steps (runAll steps start).scopes := by
  induction hsteps with
  | nil =>
      rw [runAll, List.foldl_nil, hstart]
      exact .base
  | snoc _ hframe ih =>
      rw [runAll_append]
      exact ih.run hframe

theorem defines_symbols (frame : FrameId) (before : List (Symbol × Value))
    (rest : List (Value × Value)) (s : Store) :
    ((before.map (fun e => (Value.symbol e.1, e.2)) ++ rest).forM fun e =>
        defineAs frame e.1 e.2) s =
      (rest.forM fun e => defineAs frame e.1 e.2)
        (runAll (before.map fun e => .define frame (.symbol e.1) e.2) s) := by
  induction before generalizing s with
  | nil => rfl
  | cons e before ih => exact (Run.bind_apply_ok (defineAs_symbol frame e.1 e.2 s)).trans (ih _)

/-- An update that comes to a name that is no symbol has made the definitions before it, and stops
there. -/
theorem run_update_of_not_symbol {frame : FrameId} {pairs later : List (Value × Value)}
    {before : List (Symbol × Value)} {name v : Value}
    (hpairs : table pairs = before.map (fun e => (.symbol e.1, e.2)) ++ (name, v) :: later)
    (hname : ∀ x, name ≠ .symbol x) (s : Store) :
    let t := runAll (before.map fun e => .define frame (.symbol e.1) e.2) s
    (update frame pairs).run s =
      (.error (.error (.type (.symbolExpected (name.bare t.dish)))), t) := by
  intro t
  change ((table pairs).forM fun e => defineAs frame e.1 e.2) s = _
  rw [hpairs, defines_symbols]
  exact Run.bind_apply_error (defineAs_of_not_symbol hname frame v t)

end ScopeStep

open ScopeStep in
/-- After any steps, failing ones among them, the way outward from a frame leads through the frames
around it to the base, one for every level of its depth. A name is found in the first frame on the
way in which it was ever defined, and has the value that it was given last there; if there is no
such frame, it is unbound. A definition changes what a frame sees only of that name, and only if
nothing nearer defines it. An update keeps the definitions before the first name that is no
symbol. -/
theorem lookups_follow_history {steps : List ScopeStep} (hsteps : Admissible steps) {start : Store}
    (hstart : start.scopes = .base) :
    let s := runAll steps start
    s.scopes.frames.size = (outers steps).length + 1 ∧
    (∀ outer, (pushFrame outer s).1 = .ok ((outers steps).length + 1)) ∧
    (∀ i ≤ (outers steps).length, ∃! way, Way (outers steps) i way) ∧
    (∀ i way, Way (outers steps) i way →
      s.scopes.chain i = way ∧ s.scopes.depth i + 1 = way.length ∧
      ∀ x,
        (∀ j, s.scopes.find? i x = some j ↔ (history steps).Nearest way x j) ∧
        (∀ v, lookupFrom i x s = (.ok v, s) ↔
          ∃ j, (history steps).Nearest way x j ∧ (history steps).Latest j x v) ∧
        (lookupFrom i x s = (.error (.error (.unbound x.name)), s) ↔
          ∀ k ∈ way, ¬ (history steps).Defines k x) ∧
        (s.scopes.contains i x = true ↔ ∃ j, (history steps).Nearest way x j) ∧
        ∀ j name v,
          let t := runAll (steps ++ [.define j name v]) start
          (lookupFrom i x t).1 ≠ (lookupFrom i x s).1 →
            name = .symbol x ∧ ∃ inner outer, way = inner ++ j :: outer ∧
              ∀ k ∈ inner, ¬ (history steps).Defines k x) ∧
    (∀ frame name v, (∀ x, name ≠ .symbol x) → (define frame name v).run s =
      (.error (.error (.type (.symbolExpected (name.bare s.dish)))), s)) ∧
    ∀ frame pairs (before : List (Symbol × Value)) name v later,
      table pairs = before.map (fun e => (.symbol e.1, e.2)) ++ (name, v) :: later →
      (∀ x, name ≠ .symbol x) →
        let t := runAll (steps ++ before.map fun e => .define frame (.symbol e.1) e.2) start
        (update frame pairs).run s =
          (.error (.error (.type (.symbolExpected (name.bare t.dish)))), t) := by
  intro s
  have hs : Records steps s.scopes := hsteps.records hstart
  refine ⟨hs.size, ?_, ?_, ?_, ?_, ?_⟩
  · intro outer
    rw [← hs.size]
    rfl
  · intro i hi
    exact ⟨_, hs.way i hi, fun way hway => hway.unique (hs.way i hi)⟩
  · intro i way hway
    refine ⟨hs.chain_eq hway, ?_, fun x => ⟨?_, ?_, ?_, ?_, ?_⟩⟩
    · rw [Scopes.depth, hs.chain_eq hway]
      cases hway <;> rfl
    · intro j
      exact hs.find?_eq_some_iff hway
    · intro v
      rw [lookupFrom_eq_ok_iff, hs.lookup?_eq_some_iff hway]
    · rw [lookupFrom_eq_error_iff, hs.lookup?_eq_none_iff hway]
    · simp only [Scopes.contains, Option.isSome_iff_exists, hs.find?_eq_some_iff hway]
    · intro j name v t hne
      have ht : t = ((define j name v).run s).2 := runAll_append steps [.define j name v] start
      rw [ht] at hne
      exact hs.nearest_of_lookupFrom_ne hway hne
  · intro frame name v hname
    exact defineAs_of_not_symbol hname frame v s
  · intro frame pairs before name v later hpairs hname t
    have ht : t = runAll (before.map fun e => .define frame (.symbol e.1) e.2) s :=
      runAll_append steps _ start
    rw [ht]
    exact run_update_of_not_symbol hpairs hname s

open ScopeStep in
/-- Two frames one inside the other, a definition around them, and an update that stops halfway. -/
theorem lookups_follow_history_stopped :
    let x : Symbol := ⟨"x", by decide⟩
    let y : Symbol := ⟨"y", by decide⟩
    let pairs : List (Value × Value) :=
      [(.symbol y, .boolean false), (.text "y", .nil), (.symbol x, .nil)]
    let steps : List ScopeStep :=
      [.push 0, .push 1, .define 0 (.symbol x) (.boolean true), .update 1 pairs]
    let s := runAll steps Store.empty
    let t := runAll (steps ++ [.define 1 (.symbol y) (.boolean false)]) Store.empty
    Admissible steps ∧ Way (outers steps) 2 [2, 1, 0] ∧ s.scopes.depth 2 = 2 ∧
      s.scopes.find? 2 x = some 0 ∧ lookupFrom 2 y s = (.ok (.boolean false), s) ∧
      lookupFrom 0 y s = (.error (.error (.unbound "y")), s) ∧
      (update 1 pairs).run s = (.error (.error (.type (.symbolExpected "y"))), t) := by
  intro x y pairs steps s t
  have hxy : x ≠ y := by decide
  have hsteps : Admissible steps := by
    have hinner := @Admissible.snoc _ (.push 0) .nil (by decide)
    have hinnermost := @Admissible.snoc _ (.push 1) hinner (by decide)
    have hdefine :=
      @Admissible.snoc _ (.define 0 (.symbol x) (.boolean true)) hinnermost (by decide)
    exact @Admissible.snoc _ (.update 1 pairs) hdefine (by decide)
  have hhistory : history steps = [⟨0, x, .boolean true⟩, ⟨1, y, .boolean false⟩] := rfl
  have hway : Way (outers steps) 2 [2, 1, 0] := .child rfl (.child rfl .base)
  obtain ⟨_, _, _, hlookups, _, hupdate⟩ := @lookups_follow_history _ hsteps Store.empty rfl
  obtain ⟨_, hdepth, hseen⟩ := hlookups 2 _ hway
  refine ⟨hsteps, hway, by simpa using hdepth, ?_, ?_, ?_, ?_⟩
  · refine ((hseen x).1 0).mpr ⟨[2, 1], [], rfl, ?_, ?_⟩
    · exact ⟨.boolean true, by simp [hhistory]⟩
    · simp [History.Defines, hhistory, hxy]
  · refine ((hseen y).2.1 _).mpr ⟨1, ⟨[2], [0], rfl, ?_, ?_⟩, ?_⟩
    · exact ⟨.boolean false, by simp [hhistory]⟩
    · simp [History.Defines, hhistory]
    · exact ⟨[⟨0, x, .boolean true⟩], [], hhistory, by simp [History.Defines]⟩
  · refine ((hlookups 0 _ .base).2.2 y).2.2.1.mpr ?_
    simp [History.Defines, hhistory, hxy.symm]
  · exact hupdate 1 pairs [(y, .boolean false)] (.text "y") .nil [(.symbol x, .nil)] rfl nofun

end Bakehouse
