import Bakehouse.Escape
import Bakehouse.Payload.Basic

namespace Bakehouse

/-- A code point of a text of the host: a character, or a surrogate, which stands for no character. -/
inductive CodePoint where
  | char (c : Char)
  | surrogate (offset : Fin 0x800)
deriving Repr, DecidableEq

namespace CodePoint

def code : CodePoint → Nat
  | char c => c.toNat
  | surrogate k => 0xd800 + k

def isSurrogate : CodePoint → Bool
  | char _ => false
  | surrogate _ => true

/-- The character, with the replacement character for a surrogate. -/
def toChar : CodePoint → Char
  | char c => c
  | surrogate _ => Utf8.replacement

end CodePoint

/-- A text of the host with a surrogate in it. No bytes encode it. -/
structure BrokenText where
  units : List CodePoint
  broken : units.any (·.isSurrogate) = true
deriving Repr, DecidableEq

/-- The first run of surrogates is what the encoder complains about. -/
def BrokenText.escape (t : BrokenText) : Escape :=
  let before := t.units.takeWhile (!·.isSurrogate)
  let run := (t.units.drop before.length).takeWhile (·.isSurrogate)
  .surrogates (run.map CodePoint.code) before.length

/-- What a host can put into a dish: a payload, or a text that has no bytes. -/
inductive Contents where
  | payload (p : Payload)
  | broken (t : BrokenText)
deriving Repr, DecidableEq

namespace Contents

def isBroken : Contents → Bool
  | payload _ => false
  | broken _ => true

theorem exists_payload {c : Contents} (h : c.isBroken = false) : ∃ p, c = payload p := by
  cases c with
  | payload p => exact ⟨p, rfl⟩
  | broken t => cases h

def bytes : Contents → Except Escape (List UInt8)
  | payload p => .ok p.bytes
  | broken t => .error t.escape

def ofUnits (us : List CodePoint) : Contents :=
  if h : us.any (·.isSurrogate) then broken ⟨us, h⟩
  else payload (.text (String.ofList (us.map (·.toChar))))

end Contents

end Bakehouse
