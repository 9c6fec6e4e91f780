import Bakehouse.Text.Blank
import Bakehouse.Text.Digit
import Bakehouse.Text.Letter

namespace Bakehouse.Numeral

/-- The value of an ASCII digit or letter as a digit; case does not matter. -/
def digit? (c : Char) : Option Nat :=
  if '0' ≤ c && c ≤ '9' then some (c.toNat - 48)
  else if 'a' ≤ c && c ≤ 'z' then some (c.toNat - 87)
  else if 'A' ≤ c && c ≤ 'Z' then some (c.toNat - 55)
  else none

def digitChar (d : Nat) : Char :=
  if d < 10 then Char.ofNat (48 + d) else Char.ofNat (87 + d)

/-- The digits of `n`, most significant first. -/
def digits (radix n : Nat) : List Nat :=
  if _h : 2 ≤ radix ∧ radix ≤ n then digits radix (n / radix) ++ [n % radix] else [n]
termination_by n
decreasing_by exact Nat.div_lt_self (by omega) (by omega)

def value (radix : Nat) (ds : List Nat) : Nat :=
  ds.foldl (fun v d => radix * v + d) 0

/-- The digits of a word, if all of them are digits of the radix. -/
def digitsOf? (radix : Nat) (word : List Char) : Option (List Nat) :=
  word.mapM fun c => (digit? c).filter (· < radix)

/-- Longer numerals are not converted, unless the radix is a power of two. -/
def maxDigits : Nat := 4300

def isPowerOfTwo (radix : Nat) : Bool :=
  [2, 4, 8, 16, 32].contains radix

/-- ASCII in place of the blanks and decimal digits of other scripts. -/
def plain (c : Char) : Char :=
  if c.toNat < 127 then c
  else if Text.isBlank c then ' '
  else ((Text.digitValue? c).map digitChar).getD c

/-- The letter that marks the radix after a leading zero. -/
def mark? : Nat → Option Char
  | 2 => some 'b'
  | 8 => some 'o'
  | 16 => some 'x'
  | _ => none

def isMarked (radix : Nat) : List Char → Bool
  | '0' :: c :: _ => mark? radix == some c.toLower
  | _ => false

/-- The numeral without its mark, which an underscore may follow. -/
def unmarked (radix : Nat) (cs : List Char) : List Char :=
  if isMarked radix cs then
    match cs.drop 2 with
    | '_' :: rest => rest
    | rest => rest
  else cs

/-- The digits between single underscores. -/
def grouped? (radix : Nat) (cs : List Char) : Option (List Nat) :=
  let groups := Text.pieces (· == '_') cs
  if groups.any (·.isEmpty) then none else digitsOf? radix groups.flatten

def natural? (radix : Nat) (cs : List Char) : Option Nat := do
  let ds ← grouped? radix (unmarked radix cs)
  if maxDigits < ds.length && !isPowerOfTwo radix then none else some (value radix ds)

/-- Integers may have blanks around them, a sign, a mark of the radix, single underscores between
digits, and the decimal digits of any script. -/
def integer? (radix : Nat) (cs : List Char) : Option Int :=
  let leading := (cs.map plain).dropWhile Text.isAsciiBlank
  match (leading.reverse.dropWhile Text.isAsciiBlank).reverse with
  | '+' :: rest => (natural? radix rest).map Int.ofNat
  | '-' :: rest => (natural? radix rest).map fun n : Nat => -Int.ofNat n
  | rest => (natural? radix rest).map Int.ofNat

def isAsciiAlphanumeric (c : Char) : Bool :=
  Text.isAsciiLetter c || Text.isAsciiDigit c

inductive Fault where
  | invalidDigit
  | tooLarge
deriving Repr, DecidableEq

/-- One word as a byte. All that the notation of integers has beyond digits is refused first. -/
def byte (radix : Nat) (word : List Char) : Except Fault UInt8 :=
  if word.isEmpty || !word.all isAsciiAlphanumeric || isMarked radix word then .error .invalidDigit
  else
    match integer? radix word with
    | none => .error .invalidDigit
    | some n => if 255 < n then .error .tooLarge else .ok (UInt8.ofNat n.toNat)

/-- The bytes that the words of a text stand for. -/
def decode (radix : Nat) (cs : List Char) : Except Fault (List UInt8) :=
  (Text.words cs).mapM (byte radix)

def encodeByte (radix : Nat) (b : UInt8) : List Char :=
  (digits radix b.toNat).map digitChar

/-- Numerals separated by single spaces. -/
def encode (radix : Nat) (bytes : List UInt8) : List Char :=
  [' '].intercalate (bytes.map (encodeByte radix))

end Bakehouse.Numeral
