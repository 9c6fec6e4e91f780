import Bakehouse.Escape
import Bakehouse.Pattern.Error
import Bakehouse.Payload.Base64
import Bakehouse.Payload.Numeral

namespace Bakehouse

/-- Why an operation could not transform a payload. A fault spoils the dish that the operation was
applied to; it never stops the program. -/
inductive Fault where
  | missingArgument (name : String)
  | integerExpected
  | textExpected
  | binaryData (source : String)
  | numeral (cause : Numeral.Fault)
  | base64 (cause : Base64.Fault)
  | radixOutOfRange (radix : String)
  | radixUnsupported (radix : String)
  | invalidPattern (pattern : String) (error : Pattern.Error)
  | binaryForPattern
  | negativeTake
  | negativeDrop
  | custom (message : String)
deriving Repr, DecidableEq

def Numeral.Fault.message : Numeral.Fault → String
  | invalidDigit => "invalid digit found in string"
  | tooLarge => "number too large to fit in target type"

def Fault.message : Fault → String
  | missingArgument name => "missing argument '" ++ name ++ "'"
  | integerExpected => "expected integer, got string"
  | textExpected => "expected string, got integer"
  | binaryData source => "cannot convert binary data from " ++ source
  | numeral cause => cause.message
  | base64 cause => "base64 decode error: " ++ cause.message
  | radixOutOfRange radix => "invalid radix. " ++ radix ++ " is not in the range 2..=36"
  | radixUnsupported radix => "unsupported radix `" ++ radix ++ "`"
  | invalidPattern pattern error => "invalid regex: " ++ error.message pattern
  | binaryForPattern => "dish should be string, got binary"
  | negativeTake => "amount to take must be nonnegative"
  | negativeDrop => "integer must be nonnegative"
  | custom message => message

/-- A fault, announced as such. -/
def Fault.shown (f : Fault) : String :=
  "dish error: " ++ f.message

/-- How a transformation can end other than with a payload. -/
inductive Trouble where
  | fault (f : Fault)
  | escape (e : Escape)
deriving Repr, DecidableEq

end Bakehouse
