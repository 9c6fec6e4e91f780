import Bakehouse.Operation.Catalog
import Bakehouse.Payload.Contents

namespace Bakehouse

instance : Pattern.TextUnit CodePoint := ⟨CodePoint.code, .char⟩

/-- The text with replacement characters for the surrogates. What reads numerals or base64, be it an
operation or a literal, tells neither from any other character that is not blank and not ASCII. -/
def BrokenText.replaced (t : BrokenText) : String :=
  String.ofList (t.units.map (·.toChar))

namespace Catalog

/-- What an operation makes of a text that has no bytes. Whoever needs them looks at the arguments
first. -/
def runBroken (op : Catalog) (bag : Arguments) (t : BrokenText) : Except Trouble Contents :=
  match op with
  | reverse => .ok (.ofUnits t.units.reverse)
  | fromBase64 | fromDecimal | fromOctal | fromHex | fromBinary | fromRadix =>
    (op.run bag (.text t.replaced)).map .payload
  | regexMatch characters => do
    let pattern ← compilePattern characters (← liftFault (bag.text "pattern"))
    return .ofUnits (pattern.matchTexts t.units)
  | regexReplace characters => do
    let pattern ← compilePattern characters (← liftFault (bag.text "pattern"))
    let template ← liftFault (bag.text "replacement")
    return .ofUnits (← liftEscape (pattern.replace template.toList t.units))
  | rot13 | toBase64 | toDecimal | toOctal | toHex | toBinary | toRadix | takeBytes | dropBytes => do
    let _ ← op.run bag (.binary [])
    throw (.escape t.escape)

/-- What an operation makes of whatever a dish holds, given its arguments. -/
def transform (op : Catalog) (bag : Arguments) : Contents → Except Trouble Contents
  | .payload p => (op.run bag p).map .payload
  | .broken t => op.runBroken bag t

end Catalog

end Bakehouse
