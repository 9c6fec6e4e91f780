/-!
UTF-8. The decoder runs over the bytes once and marks every ill-formed part: the longest prefix of a
character that the bytes cannot complete, or a byte that starts no character. Strict decoding refuses
marks, lenient decoding puts the replacement character in their place.
-/

namespace Bakehouse.Utf8

def byte (n : Nat) : UInt8 :=
  UInt8.ofNat n

def encodeChar (c : Char) : List UInt8 :=
  let n := c.toNat
  if n < 0x80 then
    [byte n]
  else if n < 0x800 then
    [byte (0xc0 + n / 0x40), byte (0x80 + n % 0x40)]
  else if n < 0x10000 then
    [byte (0xe0 + n / 0x1000), byte (0x80 + n / 0x40 % 0x40), byte (0x80 + n % 0x40)]
  else
    [byte (0xf0 + n / 0x40000), byte (0x80 + n / 0x1000 % 0x40), byte (0x80 + n / 0x40 % 0x40),
      byte (0x80 + n % 0x40)]

def encode (cs : List Char) : List UInt8 :=
  cs.flatMap encodeChar

/-- Between characters, or inside one: the code read so far, the number of bytes still missing, and
the range from which the next byte must come. -/
inductive State where
  | between
  | inside (code missing low high : Nat)
deriving Repr, DecidableEq

/-- The state after a byte that follows a complete character, and what the byte alone amounts to. -/
def start (b : UInt8) : State × List (Option Char) :=
  let n := b.toNat
  if n < 0x80 then (.between, [some (Char.ofNat n)])
  else if n < 0xc2 then (.between, [none])
  else if n < 0xe0 then (.inside (n - 0xc0) 1 0x80 0xbf, [])
  else if n == 0xe0 then (.inside 0 2 0xa0 0xbf, [])
  else if n == 0xed then (.inside 0xd 2 0x80 0x9f, [])
  else if n < 0xf0 then (.inside (n - 0xe0) 2 0x80 0xbf, [])
  else if n == 0xf0 then (.inside 0 3 0x90 0xbf, [])
  else if n < 0xf4 then (.inside (n - 0xf0) 3 0x80 0xbf, [])
  else if n == 0xf4 then (.inside 4 3 0x80 0x8f, [])
  else (.between, [none])

/-- One byte: the next state, and the characters and marks that are settled by it. -/
def step : State → UInt8 → State × List (Option Char)
  | .between, b => start b
  | .inside code missing low high, b =>
    if low ≤ b.toNat && b.toNat ≤ high then
      let code := code * 0x40 + (b.toNat - 0x80)
      if missing ≤ 1 then (.between, [some (Char.ofNat code)])
      else (.inside code (missing - 1) 0x80 0xbf, [])
    else
      let (next, settled) := start b
      (next, none :: settled)

/-- Characters, with `none` for each ill-formed part. -/
def scan : State → List UInt8 → List (Option Char)
  | .between, [] => []
  | .inside .., [] => [none]
  | state, b :: bs =>
    let (next, settled) := step state b
    settled ++ scan next bs

/-- The text that the bytes encode, if they are well formed. -/
def decode? (bytes : List UInt8) : Option (List Char) :=
  (scan .between bytes).mapM id

def replacement : Char :=
  Char.ofNat 0xfffd

def decodeLenient (bytes : List UInt8) : List Char :=
  (scan .between bytes).map (·.getD replacement)

end Bakehouse.Utf8
