namespace Bakehouse.Rotation

/-- The letter `n` places further in the alphabet that starts at `base`. -/
def turn (n : Int) (base code : Nat) : Nat :=
  (((code - base : Nat) + n) % 26).toNat + base

/-- Turns the letters of one alphabet and leaves every other byte. -/
def pass (n : Int) (base : Nat) (bs : List UInt8) : List UInt8 :=
  bs.map fun b =>
    if base ≤ b.toNat && b.toNat < base + 26 then UInt8.ofNat (turn n base b.toNat) else b

/-- The capital letters in one pass, then the small ones in another. -/
def bytes (n : Int) (bs : List UInt8) : List UInt8 :=
  pass (n % 26) 97 (pass (n % 26) 65 bs)

end Bakehouse.Rotation
