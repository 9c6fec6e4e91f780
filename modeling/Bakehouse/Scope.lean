import Bakehouse.Symbol

/-!
Scopes. A frame holds bindings and knows the chain of frames around it, the nearest one first. A name
is looked up from the inside out and bound in one frame only.
-/

namespace Bakehouse

abbrev FrameId := Nat

structure Frame (α : Type) where
  bindings : List (Symbol × α)
  outer : List FrameId

namespace Frame

def get? {α : Type} (f : Frame α) (x : Symbol) : Option α :=
  f.bindings.lookup x

def binds {α : Type} (f : Frame α) (x : Symbol) : Bool :=
  (f.get? x).isSome

/-- Binds a name; a name that is bound already keeps its place. -/
def define {α : Type} (f : Frame α) (x : Symbol) (v : α) : Frame α :=
  if f.binds x then
    { f with bindings := f.bindings.map fun b => if b.1 = x then (x, v) else b }
  else
    { f with bindings := f.bindings ++ [(x, v)] }

end Frame

/-- All frames made so far; the first one is the base. -/
structure Scopes (α : Type) where
  frames : Array (Frame α)

namespace Scopes

/-- A base frame without bindings. -/
def base {α : Type} : Scopes α := ⟨#[⟨[], []⟩]⟩

/-- The frames in which a name is looked up from frame `i`. -/
def chain {α : Type} (s : Scopes α) (i : FrameId) : List FrameId :=
  match s.frames[i]? with
  | some f => i :: f.outer
  | none => []

/-- A new frame inside frame `i`. -/
def push {α : Type} (s : Scopes α) (i : FrameId) : Scopes α × FrameId :=
  (⟨s.frames.push ⟨[], s.chain i⟩⟩, s.frames.size)

def define {α : Type} (s : Scopes α) (i : FrameId) (x : Symbol) (v : α) : Scopes α :=
  ⟨s.frames.modify i (·.define x v)⟩

/-- The value of a name in frame `i` itself. -/
def own? {α : Type} (s : Scopes α) (i : FrameId) (x : Symbol) : Option α :=
  (s.frames[i]?).bind (·.get? x)

/-- The nearest frame that binds the name. -/
def find? {α : Type} (s : Scopes α) (i : FrameId) (x : Symbol) : Option FrameId :=
  (s.chain i).find? fun j => (s.own? j x).isSome

def lookup? {α : Type} (s : Scopes α) (i : FrameId) (x : Symbol) : Option α :=
  (s.chain i).findSome? fun j => s.own? j x

def contains {α : Type} (s : Scopes α) (i : FrameId) (x : Symbol) : Bool :=
  (s.find? i x).isSome

/-- The number of frames around frame `i`. -/
def depth {α : Type} (s : Scopes α) (i : FrameId) : Nat :=
  (s.chain i).length - 1

/-- The names bound in frame `i` itself. -/
def names {α : Type} (s : Scopes α) (i : FrameId) : List Symbol :=
  match s.frames[i]? with
  | some f => f.bindings.map (·.1)
  | none => []

def inspect {α : Type} (s : Scopes α) (i : FrameId) : String :=
  let depth := s.depth i
  let count := (s.names i).length
  s!"<Environment depth={depth} names={count}>"

end Scopes

end Bakehouse
