import Bakehouse.Operation.Arguments
import Bakehouse.Pattern.Parser
import Bakehouse.Pattern.Template
import Bakehouse.Payload.Basic
import Bakehouse.Payload.Rotation

namespace Bakehouse

inductive Catalog where
  | rot13
  | reverse
  | fromBase64
  | toBase64
  | fromDecimal
  | toDecimal
  | fromOctal
  | toOctal
  | toHex
  | fromHex
  | fromBinary
  | toBinary
  | fromRadix
  | toRadix
  | regexMatch (characters : Pattern.CharacterNames)
  | regexReplace (characters : Pattern.CharacterNames)
  | takeBytes
  | dropBytes
deriving Repr, DecidableEq

namespace Catalog

/-- The catalog of a host that knows these characters by name. -/
def all (characters : Pattern.CharacterNames) : List Catalog :=
  [rot13, reverse, fromBase64, toBase64, fromDecimal, toDecimal, fromOctal, toOctal, toHex, fromHex,
    fromBinary, toBinary, fromRadix, toRadix, regexMatch characters, regexReplace characters,
    takeBytes, dropBytes]

def name : Catalog → String
  | rot13 => "rot13"
  | reverse => "reverse"
  | fromBase64 => "from-base64"
  | toBase64 => "to-base64"
  | fromDecimal => "from-decimal"
  | toDecimal => "to-decimal"
  | fromOctal => "from-octal"
  | toOctal => "to-octal"
  | toHex => "to-hex"
  | fromHex => "from-hex"
  | fromBinary => "from-binary"
  | toBinary => "to-binary"
  | fromRadix => "from-radix"
  | toRadix => "to-radix"
  | regexMatch _ => "regex-match"
  | regexReplace _ => "regex-replace"
  | takeBytes => "take-bytes"
  | dropBytes => "drop-bytes"

def description : Catalog → String
  | rot13 => "rotates characters in the input by the specified amount"
  | reverse => "reverses the input"
  | fromBase64 => "converts from base64"
  | toBase64 => "converts to base64"
  | fromDecimal => "converts a decimal-encoded string to its raw form"
  | toDecimal => "converts data to a decimal string"
  | fromOctal => "converts an octal-encoded string to its raw form"
  | toOctal => "converts data to an octal string"
  | toHex => "converts data into a hexadecimal encoded string"
  | fromHex => "converts a hexadecimal encoded string into its raw form"
  | fromBinary => "converts a binary encoded string into its raw form"
  | toBinary => "converts data into a binary-encoded string"
  | fromRadix => "converts data in a given radix back into its raw form"
  | toRadix => "converts data into an encoded string of a given radix"
  | regexMatch _ => "finds substrings that match regex"
  | regexReplace _ => "replaces substrings using regex groups"
  | takeBytes => "takes the specified amount of bytes from the input and discards the rest"
  | dropBytes => "drops the first `n` bytes from the input and leaves the rest"

def category : Catalog → String
  | rot13 | reverse => "Textual"
  | takeBytes | dropBytes => "Utility"
  | _ => "Data Format"

def parameters : Catalog → List (String × ArgumentType)
  | rot13 | takeBytes | dropBytes => [("n", .integer)]
  | fromRadix | toRadix => [("radix", .integer)]
  | regexMatch _ => [("pattern", .text)]
  | regexReplace _ => [("pattern", .text), ("replacement", .text)]
  | _ => []

def find? (characters : Pattern.CharacterNames) (name : String) : Option Catalog :=
  (all characters).find? (·.name == name)

end Catalog

namespace Payload

/-- The characters of a text payload. -/
def textOf (source : String) : Payload → Except Fault (List Char)
  | text s => .ok s.toList
  | binary _ => .error (.binaryData source)

def textForPattern : Payload → Except Fault (List Char)
  | text s => .ok s.toList
  | binary _ => .error .binaryForPattern

def ofChars (cs : List Char) : Payload :=
  text (String.ofList cs)

/-- A text is rotated byte by byte and decoded again. -/
def rotate (n : Int) : Payload → Except Escape Payload
  | text s =>
    match Utf8.decode? (Rotation.bytes n (text s).bytes) with
    | some cs => .ok (ofChars cs)
    | none => .error .notText
  | binary bs => .ok (binary (Rotation.bytes n bs))

def reverse : Payload → Payload
  | text s => ofChars s.toList.reverse
  | binary bs => binary bs.reverse

def toNumerals (radix : Nat) (p : Payload) : Payload :=
  ofChars (Numeral.encode radix p.bytes)

def fromNumerals (radix : Nat) (p : Payload) : Except Fault Payload := do
  let cs ← p.textOf s!"radix {radix}"
  match Numeral.decode radix cs with
  | .ok bs => return ofBytes bs
  | .error cause => throw (.numeral cause)

def toBase64 (p : Payload) : Payload :=
  ofChars (Base64.encode p.bytes)

def fromBase64 (p : Payload) : Except Fault Payload := do
  let cs ← p.textOf "base64"
  match Base64.decode cs with
  | .ok bs => return binary bs
  | .error cause => throw (.base64 cause)

/-- Radix 64 is base64; every other radix has to lie between 2 and 36. -/
def toRadix (radix : Int) (spelled : String) (p : Payload) : Except Fault Payload :=
  if radix == 64 then .ok p.toBase64
  else if 2 ≤ radix && radix ≤ 36 then .ok (p.toNumerals radix.toNat)
  else .error (.radixUnsupported spelled)

def fromRadix (radix : Int) (spelled : String) (p : Payload) : Except Fault Payload :=
  if 2 ≤ radix && radix ≤ 36 then p.fromNumerals radix.toNat
  else .error (.radixOutOfRange spelled)

def take (n : Int) (p : Payload) : Except Fault Payload :=
  if n < 0 then .error .negativeTake else .ok (binary (p.bytes.take n.toNat))

def drop (n : Int) (p : Payload) : Except Fault Payload :=
  if n < 0 then .error .negativeDrop else .ok (binary (p.bytes.drop n.toNat))

end Payload

def liftFault {α : Type} (r : Except Fault α) : Except Trouble α :=
  r.mapError .fault

def liftEscape {α : Type} (r : Except Escape α) : Except Trouble α :=
  r.mapError .escape

def compilePattern (characters : Pattern.CharacterNames) (text : String) :
    Except Trouble Pattern.Compiled :=
  match Pattern.compile characters text with
  | .ok p => .ok p
  | .error (.error e) => .error (.fault (.invalidPattern text e))
  | .error (.escape e) => .error (.escape e)

def matchPattern (characters : Pattern.CharacterNames) (bag : Arguments) (p : Payload) :
    Except Trouble Payload := do
  let pattern ← compilePattern characters (← liftFault (bag.text "pattern"))
  let cs ← liftFault p.textForPattern
  return .ofChars (pattern.matchTexts cs)

def replacePattern (characters : Pattern.CharacterNames) (bag : Arguments) (p : Payload) :
    Except Trouble Payload := do
  let pattern ← compilePattern characters (← liftFault (bag.text "pattern"))
  let template ← liftFault (bag.text "replacement")
  let cs ← liftFault p.textForPattern
  return .ofChars (← liftEscape (pattern.replace template.toList cs))

/-- What an operation makes of a payload, given its arguments. -/
def Catalog.run (op : Catalog) (bag : Arguments) (p : Payload) : Except Trouble Payload :=
  let radix (f : Int → String → Payload → Except Fault Payload) : Except Fault Payload := do
    let n ← bag.integer "radix"
    f n (← bag.get "radix").inspect p
  match op with
  | rot13 => do
    let n ← liftFault (bag.integer "n")
    liftEscape (p.rotate n)
  | reverse => .ok p.reverse
  | fromBase64 => liftFault p.fromBase64
  | toBase64 => .ok p.toBase64
  | fromDecimal => liftFault (p.fromNumerals 10)
  | toDecimal => .ok (p.toNumerals 10)
  | fromOctal => liftFault (p.fromNumerals 8)
  | toOctal => .ok (p.toNumerals 8)
  | toHex => .ok (p.toNumerals 16)
  | fromHex => liftFault (p.fromNumerals 16)
  | fromBinary => liftFault (p.fromNumerals 2)
  | toBinary => .ok (p.toNumerals 2)
  | fromRadix => liftFault (radix Payload.fromRadix)
  | toRadix => liftFault (radix Payload.toRadix)
  | regexMatch characters => matchPattern characters bag p
  | regexReplace characters => replacePattern characters bag p
  | takeBytes => liftFault ((bag.integer "n").bind p.take)
  | dropBytes => liftFault ((bag.integer "n").bind p.drop)

end Bakehouse
