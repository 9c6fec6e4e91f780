import Bakehouse.Pattern.Basic
import Bakehouse.Text.Blank
import Bakehouse.Text.Case
import Bakehouse.Text.Digit
import Bakehouse.Text.Letter

namespace Bakehouse.Pattern

open Bakehouse.Text

/-- A code point that is no character counts as the null character here: both belong to no category. -/
def Category.holds (ascii : Bool) (code : Nat) (kind : Category) : Bool :=
  let c := Char.ofNat code
  match kind with
  | .digit => if ascii then isAsciiDigit c else isDecimalDigit c
  | .blank => if ascii then isAsciiBlank c else isBlank c
  | .word => if ascii then isAsciiWord c else isWord c

def fold (ascii : Bool) (code : Nat) : Nat :=
  if ascii then asciiLower code else lower code

def cased (ascii : Bool) (code : Nat) : Bool :=
  if ascii then isAsciiCased code else isCased code

/-- The last code point of the basic plane. -/
def lastBasic : Nat := 0xffff

def SetItem.holds (ascii : Bool) (code : Nat) : SetItem → Bool
  | .single item => code == item
  | .range first last => first ≤ code && code ≤ last
  | .category kind negated => kind.holds ascii code != negated

/-- Whether the case of characters can matter to the item at all. -/
def SetItem.hasCase (ascii : Bool) : SetItem → Bool
  | .single code => lastBasic < code || cased ascii code
  | .range first last =>
    lastBasic < last ||
      (if ascii then (first ≤ 90 && 65 ≤ last) || (first ≤ 122 && 97 ≤ last)
       else casedBetween first last)
  | .category _ _ => false

/-- Whether a character of the basic plane between `first` and `last` has the lower case letter
`code`, or a variant of it. -/
def foldedRangeHolds (ascii : Bool) (first last code : Nat) : Bool :=
  if ascii then
    (first ≤ code && code ≤ last && !(65 ≤ code && code ≤ 90)) ||
      (97 ≤ code && code ≤ 122 && first ≤ code - 32 && code - 32 ≤ last)
  else
    (variants code).any (lowerMeets first last)

/-- The test of an item against a lower case letter. Outside the basic plane a single character is
taken as it is, and a range is searched for the letter in either case. -/
def SetItem.holdsFolded (ascii : Bool) (code : Nat) : SetItem → Bool
  | .single item =>
    if lastBasic < item then code == item
    else if ascii then code == asciiLower item
    else (variants (lower item)).contains code
  | .range first last =>
    foldedRangeHolds ascii first (min last lastBasic) code ||
      (lastBasic < last &&
        ((first ≤ code && code ≤ last) || (first ≤ upper code && upper code ≤ last)))
  | .category kind negated => kind.holds ascii code != negated

def literalHolds (mode : Mode) (item code : Nat) : Bool :=
  if mode.ignoreCase && cased mode.ascii item then
    if mode.ascii then asciiLower code == asciiLower item
    else (variants (lower item)).contains (lower code)
  else
    code == item

def setHolds (mode : Mode) (items : List SetItem) (code : Nat) : Bool :=
  if mode.ignoreCase && items.any (·.hasCase mode.ascii) then
    items.any (·.holdsFolded mode.ascii (fold mode.ascii code))
  else
    items.any (·.holds mode.ascii code)

def CharTest.accepts (mode : Mode) (code : Nat) : CharTest → Bool
  | .literal item => literalHolds mode item code
  | .notLiteral item => !literalHolds mode item code
  | .any => mode.dotAll || code != '\n'.toNat
  | .set negated items => setHolds mode items code != negated

/-- Whether two code points match each other where a group is repeated. -/
def sameChar (mode : Mode) (a b : Nat) : Bool :=
  if mode.ignoreCase then fold mode.ascii a == fold mode.ascii b else a == b

end Bakehouse.Pattern
