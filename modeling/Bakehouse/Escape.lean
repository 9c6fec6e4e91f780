import Bakehouse.Text.Quoted

namespace Bakehouse

/-- What no dish absorbs and no program can recover from: limits and contradictions that surface outside
the language. -/
inductive Escape where
  | tooManyDigits (count : Nat)
  | asciiAndUnicode
  | emptySymbol
  | dishContent
  | notText
  | surrogates (codes : List Nat) (place : Nat)
deriving Repr, DecidableEq

def Escape.message : Escape → String
  | tooManyDigits n =>
    "Exceeds the limit (4300 digits) for integer string conversion: " ++
      s!"value has {n} digits; use sys.set_int_max_str_digits() to increase the limit"
  | asciiAndUnicode => "ASCII and UNICODE flags are incompatible"
  | emptySymbol => "symbol name must not be empty"
  | dishContent => "a dish holds exactly one of data or error"
  | notText => "'utf-8' codec can't decode the bytes"
  | surrogates [code] place =>
    "'utf-8' codec can't encode character '" ++ String.ofList (Text.escapeCode code) ++
      s!"' in position {place}: surrogates not allowed"
  | surrogates codes place =>
    s!"'utf-8' codec can't encode characters in position {place}-{place + codes.length - 1}" ++
      ": surrogates not allowed"

end Bakehouse
