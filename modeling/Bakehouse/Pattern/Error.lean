import Bakehouse.Text.Quoted

namespace Bakehouse.Pattern

inductive Cause where
  | escapeAtEnd
  | badEscape (escape : String)
  | incompleteEscape (escape : String)
  | octalTooLarge (escape : String)
  | missingBrace
  | missing (what : String)
  | unterminatedName (terminator : Char)
  | unknownCharacterName (name : String)
  | openGroup
  | sameLookbehind
  | invalidReference (group : Nat)
  | unterminatedSet
  | badRange (first last : String)
  | repeatOrder
  | nothingToRepeat
  | multipleRepeat
  | unexpectedEnd
  | badGroupName (name : String)
  | unknownGroupName (name : String)
  | redefinition (name : String) (group earlier : Nat)
  | unknownExtension (text : String)
  | unterminatedComment
  | unterminatedGroup
  | badGroupNumber
  | threeBranches
  | lateFlags
  | localeFlag
  | typeFlagsMixed
  | missingFlagEnd
  | unknownFlag
  | globalFlagOn
  | globalFlagOff
  | missingFlag
  | typeFlagOff
  | missingColon
  | flagOnAndOff
  | unbalanced
  | repeatTooLarge
  | looksTooFarBehind
  | lookbehindWidth
  | templateLoop (operator : String)
  | outOfFuel
deriving Repr, DecidableEq

def Cause.message : Cause → String
  | escapeAtEnd => "bad escape (end of pattern)"
  | badEscape e => "bad escape " ++ e
  | incompleteEscape e => "incomplete escape " ++ e
  | octalTooLarge e => "octal escape value " ++ e ++ " outside of range 0-0o377"
  | missingBrace => "missing \x7b"
  | missing what => "missing " ++ what
  | unterminatedName t => "missing " ++ t.toString ++ ", unterminated name"
  | unknownCharacterName n => "undefined character name " ++ Text.quoted n
  | openGroup => "cannot refer to an open group"
  | sameLookbehind => "cannot refer to group defined in the same lookbehind subpattern"
  | invalidReference g => s!"invalid group reference {g}"
  | unterminatedSet => "unterminated character set"
  | badRange a b => "bad character range " ++ a ++ "-" ++ b
  | repeatOrder => "min repeat greater than max repeat"
  | nothingToRepeat => "nothing to repeat"
  | multipleRepeat => "multiple repeat"
  | unexpectedEnd => "unexpected end of pattern"
  | badGroupName n => "bad character in group name " ++ Text.quoted n
  | unknownGroupName n => "unknown group name " ++ Text.quoted n
  | redefinition n g e =>
    "redefinition of group name " ++ Text.quoted n ++ s!" as group {g}; was group {e}"
  | unknownExtension t => "unknown extension ?" ++ t
  | unterminatedComment => "missing ), unterminated comment"
  | unterminatedGroup => "missing ), unterminated subpattern"
  | badGroupNumber => "bad group number"
  | threeBranches => "conditional backref with more than two branches"
  | lateFlags => "global flags not at the start of the expression"
  | localeFlag => "bad inline flags: cannot use 'L' flag with a str pattern"
  | typeFlagsMixed => "bad inline flags: flags 'a', 'u' and 'L' are incompatible"
  | missingFlagEnd => "missing -, : or )"
  | unknownFlag => "unknown flag"
  | globalFlagOn => "bad inline flags: cannot turn on global flag"
  | globalFlagOff => "bad inline flags: cannot turn off global flag"
  | missingFlag => "missing flag"
  | typeFlagOff => "bad inline flags: cannot turn off flags 'a', 'u' and 'L'"
  | missingColon => "missing :"
  | flagOnAndOff => "bad inline flags: flag turned on and off"
  | unbalanced => "unbalanced parenthesis"
  | repeatTooLarge => "the repetition number is too large"
  | looksTooFarBehind => "looks too much behind"
  | lookbehindWidth => "look-behind requires fixed-width pattern"
  | templateLoop operator => "internal: unsupported template operator " ++ operator
  | outOfFuel => "pattern too deep"

structure Error where
  cause : Cause
  place : Option Nat
deriving Repr, DecidableEq

/-- The line and the column of a place, both counted from one. -/
def lineColumn (pattern : List Char) (place : Nat) : Nat × Nat :=
  let before := pattern.take place
  ((before.filter (· == '\n')).length + 1, (before.reverse.takeWhile (· != '\n')).length + 1)

/-- The cause, then its place; the line and the column only in a pattern of several lines. -/
def Error.message (e : Error) (pattern : String) : String :=
  match e.place with
  | none => e.cause.message
  | some place =>
    let cs := pattern.toList
    let text := e.cause.message ++ s!" at position {place}"
    if cs.contains '\n' then
      let (line, column) := lineColumn cs place
      text ++ s!" (line {line}, column {column})"
    else
      text

end Bakehouse.Pattern
