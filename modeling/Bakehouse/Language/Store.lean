import Bakehouse.Language.Error
import Bakehouse.Language.Printer
import Bakehouse.Reader.Form

namespace Bakehouse

/-- A dish, and whether an operation is working on it. -/
structure Cell where
  dish : Dish
  borrowed : Bool

/-- Everything that outlives an evaluation. -/
structure Store where
  scopes : Scopes Value
  cells : Array Cell
  /-- The next identity to be given to a function. -/
  fresh : Nat
  output : String

namespace Store

/-- One frame, and nothing else. -/
def empty : Store := ⟨.base, #[], 0, ""⟩

def dish (s : Store) (handle : Handle) : Dish :=
  match s.cells[handle]? with
  | some cell => cell.dish
  | none => .good (.text "")

def isBorrowed (s : Store) (handle : Handle) : Bool :=
  (s.cells[handle]?).any (·.borrowed)

def setDish (s : Store) (handle : Handle) (d : Dish) : Store :=
  { s with cells := s.cells.modify handle fun cell => { cell with dish := d } }

def setBorrowed (s : Store) (handle : Handle) (b : Bool) : Store :=
  { s with cells := s.cells.modify handle fun cell => { cell with borrowed := b } }

/-- A new dish that holds a payload. -/
def newDish (s : Store) (p : Payload) : Store × Handle :=
  ({ s with cells := s.cells.push ⟨.good p, false⟩ }, s.cells.size)

def display (s : Store) (v : Value) : String :=
  v.display s.dish false

def readable (s : Store) (v : Value) : String :=
  v.display s.dish true

def inspect (s : Store) (v : Value) : String :=
  v.inspect s.dish

end Store

/-- A run keeps what it did to the store even when it ends in an error. -/
abbrev Run := ExceptT Halt (StateM Store)

def raise {α : Type} (e : Error) : Run α :=
  throw (.error e)

/-- The display of a value, as things stand. -/
def shown (v : Value) : Run String := do
  return (← get).display v

def typeError {α : Type} (make : String → TypeError) (v : Value) : Run α := do
  raise (.type (make (← shown v)))

def newIdentity : Run Nat :=
  modifyGet fun s => (s.fresh, { s with fresh := s.fresh + 1 })

def newDish (p : Payload) : Run Value :=
  modifyGet fun s =>
    let (s, handle) := s.newDish p
    (.dish handle, s)

def write (text : String) : Run Unit :=
  modify fun s => { s with output := s.output ++ text }

def pushFrame (outer : FrameId) : Run FrameId :=
  modifyGet fun s =>
    let (scopes, frame) := s.scopes.push outer
    (frame, { s with scopes })

def defineIn (frame : FrameId) (x : Symbol) (v : Value) : Run Unit :=
  modify fun s => { s with scopes := s.scopes.define frame x v }

def lookupFrom (frame : FrameId) (x : Symbol) : Run Value := do
  match (← get).scopes.lookup? frame x with
  | some v => return v
  | none => raise (.unbound x.name)

/-- Binds under a name given as a value, which has to be a symbol. -/
def defineAs (frame : FrameId) (name v : Value) : Run Unit := do
  match name with
  | .symbol x => defineIn frame x v
  | _ =>
    let s ← get
    raise (.type (.symbolExpected (name.bare s.dish)))

/-- Adds an entry to a table of definitions; a symbol that is there already keeps its place and takes
the new value. -/
def collect (table : List (Value × Value)) (name v : Value) : List (Value × Value) :=
  let sameName : Value → Bool
    | .symbol x =>
      match name with
      | .symbol y => x = y
      | _ => false
    | _ => false
  if table.any (sameName ·.1) then
    table.map fun e => if sameName e.1 then (e.1, v) else e
  else
    table ++ [(name, v)]

/-- Binds every name of a table in order, up to the first one that is no symbol. -/
def defineTable (frame : FrameId) (pairs : List (Value × Value)) : Run Unit :=
  (pairs.foldl (fun table e => collect table e.1 e.2) []).forM fun e => defineAs frame e.1 e.2

mutual

/-- A form as a value: every dish literal becomes a dish of its own. -/
def Form.load : Form → Run Value
  | .number x => return .number x
  | .boolean b => return .boolean b
  | .text s => return .text s
  | .symbol s => return .symbol s
  | .list items => return .list (← loadAll items)
  | .dish p => newDish p

def Form.loadAll : List Form → Run (List Value)
  | [] => return []
  | f :: fs => do
    let v ← f.load
    return v :: (← loadAll fs)

end

end Bakehouse
