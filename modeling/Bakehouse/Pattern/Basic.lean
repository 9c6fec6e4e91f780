namespace Bakehouse.Pattern

/-- How a leaf matches. -/
structure Mode where
  ignoreCase : Bool
  multiline : Bool
  dotAll : Bool
  ascii : Bool
deriving Repr, DecidableEq

inductive Category where
  | digit
  | blank
  | word
deriving Repr, DecidableEq

/-- A member of a character set. Code points are numbers because a pattern may name surrogates, which
no text contains. -/
inductive SetItem where
  | single (code : Nat)
  | range (first last : Nat)
  | category (kind : Category) (negated : Bool)
deriving Repr, DecidableEq

/-- A test on one character. -/
inductive CharTest where
  | literal (code : Nat)
  | notLiteral (code : Nat)
  | any
  | set (negated : Bool) (items : List SetItem)
deriving Repr, DecidableEq

inductive Anchor where
  | lineStart
  | lineStop
  | textStart
  | textStop
  | boundary
  | notBoundary
deriving Repr, DecidableEq

inductive Greed where
  | greedy
  | reluctant
  | possessive
deriving Repr, DecidableEq

/-- Flags are resolved while the text is read, so that every leaf knows the mode in which it
matches. -/
inductive Node where
  | empty
  | char (test : CharTest) (mode : Mode)
  | anchor (kind : Anchor) (mode : Mode)
  | backref (group : Nat) (mode : Mode)
  | seq (first second : Node)
  | alt (first second : Node)
  | enclosed (body : Node)
  | capture (group : Nat) (body : Node)
  | atomic (body : Node)
  | loop (greed : Greed) (least : Nat) (most : Option Nat) (body : Node)
  | ahead (negated : Bool) (body : Node)
  | behind (negated : Bool) (least most : Nat) (body : Node)
  | condition (group : Nat) (yes no : Node)
deriving Repr

/-- Widths are capped at this value, which stands for "unbounded". -/
def maxWidth : Nat := Nat.pow 2 64

/-- The least and the greatest number of characters that a node can match, given those of the groups
it refers to. -/
def Node.width (groups : Nat → Nat × Nat) : Node → Nat × Nat
  | empty => (0, 0)
  | char _ _ => (1, 1)
  | anchor _ _ => (0, 0)
  | backref g _ => groups g
  | seq p q =>
    let (a, b) := p.width groups
    let (c, d) := q.width groups
    (min (a + c) maxWidth, min (b + d) maxWidth)
  | alt p q =>
    let (a, b) := p.width groups
    let (c, d) := q.width groups
    (min a c, max b d)
  | enclosed p => p.width groups
  | capture _ p => p.width groups
  | atomic p => p.width groups
  | loop _ least most p =>
    let (a, b) := p.width groups
    let upper :=
      match most with
      | some n => b * n
      | none => if b == 0 then 0 else maxWidth
    (min (a * least) maxWidth, min upper maxWidth)
  | ahead _ _ => (0, 0)
  | behind _ _ _ _ => (0, 0)
  | condition _ p q =>
    let (a, b) := p.width groups
    let (c, d) := q.width groups
    (min a c, max b d)

/-- A pattern ready to match: its tree, the number of its groups, and their names. -/
structure Compiled where
  root : Node
  groups : Nat
  names : List (String × Nat)
deriving Repr

end Bakehouse.Pattern
