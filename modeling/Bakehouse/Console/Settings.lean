import Bakehouse.Console.Path

namespace Bakehouse

/-- Where prelude files are looked for: in the prelude that comes with the program, or at a path. -/
inductive PreludeRoot where
  | packaged
  | path (p : Path)
deriving Repr, DecidableEq

inductive LogLevel where
  | unset
  | debug
  | info
  | warning
  | error
  | critical
deriving Repr, DecidableEq

namespace LogLevel

def rank : LogLevel → Nat
  | unset => 0
  | debug => 10
  | info => 20
  | warning => 30
  | error => 40
  | critical => 50

/-- The capital of a letter. Besides the small letters, the dotless i and the long s have capitals
among the first 128 code points. -/
def capital (c : Char) : Char :=
  if c == 'ı' then 'I' else if c == 'ſ' then 'S' else c.toUpper

def ofName? (name : String) : Option LogLevel :=
  [("NOTSET", unset), ("DEBUG", debug), ("INFO", info), ("WARN", warning), ("WARNING", warning),
    ("ERROR", error), ("FATAL", critical), ("CRITICAL", critical)].lookup name

/-- The level that a text names in letters of any case; warnings are logged if it names none. -/
def ofText (s : String) : LogLevel :=
  (ofName? (String.ofList ((Text.strip s.toList).map capital))).getD warning

end LogLevel

structure Settings where
  roots : List PreludeRoot
  prompt : String
  logLevel : LogLevel
deriving Repr, DecidableEq

namespace Settings

/-- Roots are separated by colons; blanks around a root do not belong to it. -/
def rootsOf (s : String) : List PreludeRoot :=
  let roots := (Text.pieces (· == ':') s.toList).map Text.strip
  (roots.filter (!·.isEmpty)).map fun root => .path (.ofString (String.ofList root))

/-- The settings under an environment. An empty list of roots counts as not given, but an empty prompt
is a prompt. -/
def ofVariables (value? : String → Option String) : Settings where
  roots :=
    match value? "CODEBAKE_PRELUDE_PATH" with
    | none => [.packaged]
    | some s => if s = "" then [.packaged] else rootsOf s
  prompt := (value? "CODEBAKE_PROMPT").getD "codebake> "
  logLevel := LogLevel.ofText ((value? "CODEBAKE_LOG_LEVEL").getD "WARNING")

end Settings

end Bakehouse
