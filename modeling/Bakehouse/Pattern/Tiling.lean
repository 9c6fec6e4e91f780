import Bakehouse.Pattern.Matcher

namespace Bakehouse.Pattern

/-- The place of a match, and the spans of its groups. -/
structure Match where
  start : Nat
  stop : Nat
  marks : Array (Option Nat)
deriving Repr

variable {α : Type} [TextUnit α]

/-- The match that starts at `start`, if there is one; an empty one only if `mayBeEmpty`. -/
def Compiled.matchAt? (p : Compiled) (text : Array α) (mayBeEmpty : Bool) (start : Nat) :
    Option Match :=
  let final (s : Cursor) : Option Cursor :=
    if s.place == start && !mayBeEmpty then none else some s
  (p.root.run text ⟨start, Array.replicate (2 * p.groups) none⟩ final).map fun s =>
    ⟨start, s.place, s.marks⟩

/-- Looks at `places` places from `start` on; only the first has to obey `mayBeEmpty`. -/
def Compiled.searchFrom (p : Compiled) (text : Array α) :
    (places : Nat) → (mayBeEmpty : Bool) → (start : Nat) → Option Match
  | 0, _, _ => none
  | places + 1, mayBeEmpty, start =>
    match p.matchAt? text mayBeEmpty start with
    | some m => some m
    | none => p.searchFrom text places true (start + 1)

/-- An empty match is allowed where the match before it ended, unless that match was empty itself. -/
def Compiled.matchesFrom (p : Compiled) (text : Array α) :
    (fuel : Nat) → (mayBeEmpty : Bool) → (start : Nat) → List Match
  | 0, _, _ => []
  | fuel + 1, mayBeEmpty, start =>
    match p.searchFrom text (text.size + 1 - start) mayBeEmpty start with
    | some m => m :: p.matchesFrom text fuel (m.start != m.stop) m.stop
    | none => []

/-- At every place at most one empty and one longer match end, so the steps suffice. -/
def Compiled.matchesIn (p : Compiled) (text : Array α) : List Match :=
  p.matchesFrom text (2 * text.size + 2) true 0

/-- The characters from `start` up to `stop`. -/
def slice (text : Array α) (start stop : Nat) : List α :=
  (text.extract start stop).toList

def Match.text (m : Match) (text : Array α) : List α :=
  slice text m.start m.stop

/-- The text of group `n`, where group 0 is the whole match; nothing if the group does not exist or
took no part. -/
def Match.group (m : Match) (text : Array α) (n : Nat) : List α :=
  if n == 0 then
    m.text text
  else
    match spanOf? m.marks n with
    | some (start, stop) => slice text start stop
    | none => []

/-- A text cut at its matches: each match with the gap before it, and the gap after the last one. -/
structure Tiling (α : Type) where
  tiles : List (List α × Match)
  rest : List α

def tilesFrom (text : Array α) : Nat → List Match → Tiling α
  | place, [] => ⟨[], slice text place text.size⟩
  | place, m :: ms =>
    let t := tilesFrom text m.stop ms
    ⟨(slice text place m.start, m) :: t.tiles, t.rest⟩

def Compiled.tiling (p : Compiled) (text : Array α) : Tiling α :=
  tilesFrom text 0 (p.matchesIn text)

/-- The matches laid end to end with other text in their place. -/
def Tiling.fill (t : Tiling α) (texts : List (List α)) : List α :=
  (List.zipWith (fun tile text => tile.1 ++ text) t.tiles texts).flatten ++ t.rest

end Bakehouse.Pattern
