import Bakehouse.Pattern.CharTest

/-!
Backtracking search for a match at a given place. A node is run on a cursor together with what has to
match after it; the first way to satisfy both is the answer. A cursor carries the marks of the groups
passed so far, so that giving up an attempt needs no undoing.
-/

namespace Bakehouse.Pattern

/-- A place in the text, and where each group was last entered (even index) and left (odd index). -/
structure Cursor where
  place : Nat
  marks : Array (Option Nat)
deriving Repr

def Cursor.mark (s : Cursor) (index : Nat) : Cursor :=
  { s with marks := s.marks.setIfInBounds index (some s.place) }

/-- The span of a group that has been entered and then left. -/
def spanOf? (marks : Array (Option Nat)) (group : Nat) : Option (Nat × Nat) :=
  match (marks[2 * group - 2]?).join, (marks[2 * group - 1]?).join with
  | some start, some stop => if start ≤ stop then some (start, stop) else none
  | _, _ => none

/-- What a text can be made of: characters, or units of which some stand for no character. -/
class TextUnit (α : Type) where
  code : α → Nat
  ofChar : Char → α

instance : TextUnit Char := ⟨Char.toNat, id⟩

variable {α : Type} [TextUnit α]

def codeAt? (text : Array α) (place : Nat) : Option Nat :=
  (text[place]?).map TextUnit.code

def wordAt (text : Array α) (ascii : Bool) (place : Nat) : Bool :=
  (codeAt? text place).any fun code => Category.word.holds ascii code

def lineEndsAt (text : Array α) (place : Nat) : Bool :=
  codeAt? text place == some '\n'.toNat

def Anchor.holds (text : Array α) (mode : Mode) (place : Nat) : Anchor → Bool
  | .lineStart => place == 0 || (mode.multiline && lineEndsAt text (place - 1))
  | .lineStop =>
    place == text.size || (lineEndsAt text place && (mode.multiline || place + 1 == text.size))
  | .textStart => place == 0
  | .textStop => place == text.size
  | .boundary =>
    text.size != 0 &&
      (place != 0 && wordAt text mode.ascii (place - 1)) != wordAt text mode.ascii place
  | .notBoundary =>
    text.size != 0 &&
      (place != 0 && wordAt text mode.ascii (place - 1)) == wordAt text mode.ascii place

/-- Whether the text repeats at `place` what stands from `start` to `start + size`. -/
def repeats (text : Array α) (mode : Mode) (start place : Nat) : Nat → Bool
  | 0 => true
  | size + 1 =>
    match codeAt? text start, codeAt? text place with
    | some a, some b => sameChar mode a b && repeats text mode (start + 1) (place + 1) size
    | _, _ => false

/-- What has to match next; `none` sends the search back to its last choice. -/
abbrev Next := Cursor → Option Cursor

/-- A node that waits for its cursor and for what follows it. -/
abbrev Body := Cursor → Next → Option Cursor

/-- Whether one more round may be tried after `count` rounds: the bound is not reached, and the last
round beyond the least number did not start here already. -/
def mayRepeat (most : Option Nat) (count : Nat) (last : Option Nat) (place : Nat) : Bool :=
  (most.all fun n => count < n) && last != some place

/-- As many rounds as possible, then what follows, giving rounds back one at a time. -/
def greedyLoop (body : Body) (least : Nat) (most : Option Nat) (next : Next) :
    (fuel count : Nat) → (last : Option Nat) → Next
  | 0, _, _, _ => none
  | fuel + 1, count, last, s =>
    if count < least then
      body s (greedyLoop body least most next fuel (count + 1) last)
    else if mayRepeat most count last s.place then
      match body s (greedyLoop body least most next fuel (count + 1) (some s.place)) with
      | some t => some t
      | none => next s
    else
      next s

/-- As few rounds as possible. -/
def reluctantLoop (body : Body) (least : Nat) (most : Option Nat) (next : Next) :
    (fuel count : Nat) → (last : Option Nat) → Next
  | 0, _, _, _ => none
  | fuel + 1, count, last, s =>
    if count < least then
      body s (reluctantLoop body least most next fuel (count + 1) last)
    else
      match next s with
      | some t => some t
      | none =>
        if mayRepeat most count last s.place then
          body s (reluctantLoop body least most next fuel (count + 1) (some s.place))
        else
          none

/-- As many rounds as possible, none of which is given back. -/
def possessiveLoop (body : Body) (least : Nat) (most : Option Nat) (next : Next) :
    (fuel count : Nat) → (last : Option Nat) → Next
  | 0, _, _, _ => none
  | fuel + 1, count, last, s =>
    if count < least then
      match body s some with
      | some t => possessiveLoop body least most next fuel (count + 1) last t
      | none => none
    else if mayRepeat most count last s.place then
      match body s some with
      | some t => possessiveLoop body least most next fuel (count + 1) (some s.place) t
      | none => next s
    else
      next s

/-- Rounds beyond the least number start at different places, so this many steps are enough. -/
def loopFuel (text : Array α) (least : Nat) (s : Cursor) : Nat :=
  least + (text.size - s.place) + 2

/-- Runs a loop of the given greed from its first round. -/
def Greed.run (greed : Greed) (text : Array α) (body : Body) (least : Nat) (most : Option Nat)
    (s : Cursor) (next : Next) : Option Cursor :=
  match greed with
  | .greedy => greedyLoop body least most next (loopFuel text least s) 0 none s
  | .reluctant => reluctantLoop body least most next (loopFuel text least s) 0 none s
  | .possessive => possessiveLoop body least most next (loopFuel text least s) 0 none s

def Node.run (text : Array α) : Node → Body
  | .empty, s, next => next s
  | .char test mode, s, next =>
    match text[s.place]? with
    | some c =>
      if test.accepts mode (TextUnit.code c) then next { s with place := s.place + 1 } else none
    | none => none
  | .anchor kind mode, s, next => if kind.holds text mode s.place then next s else none
  | .backref group mode, s, next =>
    match spanOf? s.marks group with
    | some (start, stop) =>
      if repeats text mode start s.place (stop - start) then
        next { s with place := s.place + (stop - start) }
      else
        none
    | none => none
  | .seq p q, s, next => p.run text s fun t => q.run text t next
  | .alt p q, s, next =>
    match p.run text s next with
    | some t => some t
    | none => q.run text s next
  | .enclosed p, s, next => p.run text s next
  | .capture group p, s, next =>
    p.run text (s.mark (2 * group - 2)) fun t => next (t.mark (2 * group - 1))
  | .atomic p, s, next =>
    match p.run text s some with
    | some t => next t
    | none => none
  | .loop greed least most p, s, next => greed.run text (p.run text) least most s next
  | .ahead negated p, s, next =>
    match p.run text s some with
    | some t => if negated then none else next { t with place := s.place }
    | none => if negated then next s else none
  | .behind negated width _ p, s, next =>
    if width ≤ s.place then
      match p.run text { s with place := s.place - width } some with
      | some t => if negated then none else next { t with place := s.place }
      | none => if negated then next s else none
    else
      if negated then next s else none
  | .condition group yes no, s, next =>
    if (spanOf? s.marks group).isSome then yes.run text s next else no.run text s next

end Bakehouse.Pattern
