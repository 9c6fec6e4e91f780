import Bakehouse.Escape
import Bakehouse.Pattern.Basic
import Bakehouse.Pattern.Error
import Bakehouse.Text.Identifier

namespace Bakehouse.Pattern

/-- A character, or a backslash with the character after it. -/
inductive Piece where
  | plain (c : Char)
  | escape (c : Char)
deriving Repr, DecidableEq

def Piece.text : Piece → String
  | plain c => String.ofList [c]
  | escape c => String.ofList ['\\', c]

def Piece.width : Piece → Nat
  | plain _ => 1
  | escape _ => 2

/-- The pieces of a text, and whether a backslash with nothing after it ends the text. -/
def piecesOf : List Char → List Piece × Bool
  | [] => ([], false)
  | '\\' :: cs =>
    match cs with
    | [] => ([], true)
    | c :: rest =>
      let (ps, dangling) := piecesOf rest
      (.escape c :: ps, dangling)
  | c :: cs =>
    let (ps, dangling) := piecesOf cs
    (.plain c :: ps, dangling)

/-- The characters that a host knows by name. -/
abbrev CharacterNames := List (String × Char)

structure Scanner where
  characters : CharacterNames
  rest : List Piece
  place : Nat
  dangling : Bool
  /-- Letters of the flags set for the whole pattern. -/
  flags : List Char
  /-- The widths of the groups opened so far, unknown while a group is open. -/
  groups : Array (Option (Nat × Nat))
  names : List (String × Nat)
  /-- The number of groups before the outermost lookbehind that is being read. -/
  behind : Option Nat
  /-- Groups that conditions ask for by number, with the place of the first question. -/
  asked : List (Nat × Nat)

inductive Stop where
  | error (e : Error)
  | escape (e : Escape)
deriving Repr

abbrev Scan := StateT Scanner (Except Stop)

def fail {α : Type} (cause : Cause) (place : Nat) : Scan α :=
  throw (.error ⟨cause, some place⟩)

/-- Fails `back` characters before the current place. -/
def failBack {α : Type} (cause : Cause) (back : Nat) : Scan α := do
  fail cause ((← get).place - back)

def peek : Scan (Option Piece) := do
  return (← get).rest.head?

/-- A dangling backslash is noticed as soon as it comes next. -/
def checkDangling : Scan Unit := do
  let s ← get
  if s.rest.isEmpty && s.dangling then fail .escapeAtEnd s.place else pure ()

/-- Takes the next piece, if any. -/
def take : Scan (Option Piece) := do
  let s ← get
  match s.rest with
  | [] => return none
  | p :: ps =>
    set { s with rest := ps, place := s.place + p.width }
    checkDangling
    return some p

/-- Takes the next piece if it is the character `c`. -/
def accept (c : Char) : Scan Bool := do
  if (← peek) == some (.plain c) then
    let _ ← take
    return true
  else
    return false

/-- Takes up to `limit` characters of a class. -/
def takeClass (holds : Char → Bool) : Nat → Scan (List Char)
  | 0 => return []
  | limit + 1 => do
    match ← peek with
    | some (.plain c) =>
      if holds c then
        let _ ← take
        return c :: (← takeClass holds limit)
      else
        return []
    | _ => return []

/-- Takes a name up to its terminator. The fuel is the number of pieces left, and one more. -/
def takeName (terminator : Char) (what : String) : Nat → String → Scan String
  | 0, _ => throw (.error ⟨.outOfFuel, none⟩)
  | fuel + 1, name => do
    match ← take with
    | none =>
      if name.isEmpty then failBack (.missing what) 0
      else failBack (.unterminatedName terminator) name.length
    | some p =>
      if p == .plain terminator then
        if name.isEmpty then failBack (.missing what) 1 else return name
      else
        takeName terminator what fuel (name ++ p.text)

def nameUntil (terminator : Char) (what : String) : Scan String := do
  takeName terminator what ((← get).rest.length + 1) ""

def groupName (terminator : Char) : Scan String := do
  let name ← nameUntil terminator "group name"
  if Text.isIdentifier name.toList then return name
  else failBack (.badGroupName name) (name.length + 1)

/-- Whether a group has been closed. -/
def isClosed (group : Nat) : Scan Bool := do
  return ((← get).groups[group - 1]?).join.isSome

/-- Inside a lookbehind only groups from outside it may be referred to. -/
def checkBehind (group : Nat) : Scan Unit := do
  match (← get).behind with
  | none => pure ()
  | some known =>
    if !(← isClosed group) then failBack .openGroup 0
    else if known < group then failBack .sameLookbehind 0
    else pure ()

def openGroup (name : Option String) : Scan Nat := do
  let s ← get
  let group := s.groups.size + 1
  match name with
  | none =>
    set { s with groups := s.groups.push none }
    return group
  | some n =>
    match s.names.lookup n with
    | some earlier => failBack (.redefinition n group earlier) (n.length + 1)
    | none =>
      set { s with groups := s.groups.push none, names := s.names ++ [(n, group)] }
      return group

/-- The widths of the groups, as far as they are closed. -/
def groupWidths (s : Scanner) (group : Nat) : Nat × Nat :=
  ((s.groups[group - 1]?).join).getD (0, 0)

def closeGroup (group : Nat) (body : Node) : Scan Unit :=
  modify fun s =>
    { s with groups := s.groups.setIfInBounds (group - 1) (some (body.width (groupWidths s))) }

end Bakehouse.Pattern
