import Bakehouse.Payload.Utf8
import Bakehouse.Text.Quoted

namespace Bakehouse

/-- What a dish holds while nothing has gone wrong. A text is made of characters, so it has bytes. -/
inductive Payload where
  | text (value : String)
  | binary (bytes : List UInt8)
deriving Repr, DecidableEq

namespace Payload

def isText : Payload → Bool
  | text _ => true
  | binary _ => false

/-- The bytes of the payload; a text is encoded as UTF-8. -/
def bytes : Payload → List UInt8
  | text s => Utf8.encode s.toList
  | binary bs => bs

/-- The payload as text; ill-formed parts of binary data become replacement characters. -/
def shown : Payload → String
  | text s => s
  | binary bs => String.ofList (Utf8.decodeLenient bs)

/-- The payload in quoted notation. -/
def inspect : Payload → String
  | text s => Text.quoted s
  | binary bs => Text.quotedBytes bs

/-- Text when the bytes are well-formed UTF-8, binary data otherwise. -/
def ofBytes (bs : List UInt8) : Payload :=
  match Utf8.decode? bs with
  | some cs => text (String.ofList cs)
  | none => binary bs

end Payload

end Bakehouse
