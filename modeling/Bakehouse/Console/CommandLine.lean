import Bakehouse.Console.Prelude
import Bakehouse.Text.Digit

namespace Bakehouse

namespace CommandLine

inductive Choice where
  | help
  | noPrelude
deriving Repr, DecidableEq

/-- What a word of the command line is: an operand, an option, an option with a value it does not
take, or an option that is not known or could be several. -/
inductive Word where
  | operand
  | option (choice : Choice)
  | overfull
  | unknown
  | ambiguous
deriving Repr, DecidableEq

def longOptions : List (String × Choice) :=
  [("--help", .help), ("--no-prelude", .noPrelude)]

/-- `-1`, `-2.5`, `-.5`, possibly with a line feed at the end. -/
def isNegativeNumber (cs : List Char) : Bool :=
  match cs with
  | '-' :: rest =>
    let body := if rest.getLast? = some '\n' then rest.dropLast else rest
    let whole := body.takeWhile Text.isDecimalDigit
    match body.dropWhile Text.isDecimalDigit with
    | [] => !whole.isEmpty
    | '.' :: fraction => !fraction.isEmpty && fraction.all Text.isDecimalDigit
    | _ => false
  | _ => false

/-- A word that starts like an option but is none is an operand if it is a negative number or holds a
space. -/
def unmatched (cs : List Char) : Word :=
  if isNegativeNumber cs || cs.contains ' ' then .operand else .unknown

/-- A word that starts with two dashes. What follows an equals sign is a value. -/
def longWord (cs : List Char) : Word :=
  let name := cs.takeWhile (· != '=')
  let full := longOptions.filter fun o => o.1.toList = name
  let begun := longOptions.filter fun o => name.isPrefixOf o.1.toList
  match (if full.isEmpty then begun else full) with
  | [] => unmatched cs
  | [o] => if name = cs then .option o.2 else .overfull
  | _ => .ambiguous

/-- A word that starts with one dash: `-h`, which may be repeated in one word. -/
def shortWord (cs : List Char) : Word :=
  match cs with
  | '-' :: 'h' :: more => if more.all (· == 'h') then .option .help else .overfull
  | _ => unmatched cs

def classify (arg : String) : Word :=
  match arg.toList with
  | '-' :: '-' :: cs => longWord ('-' :: '-' :: cs)
  | '-' :: c :: cs => shortWord ('-' :: c :: cs)
  | _ => .operand

end CommandLine

inductive Command where
  | help
  | usageError
  | start (script : Option String) (noPrelude : Bool)
deriving Repr, DecidableEq

namespace CommandLine

/-- The first option that ends the reading of the command line at once, if there is one. -/
def interruption? (words : List Word) : Option Command :=
  if words.contains .ambiguous then some .usageError
  else
    words.findSome? fun
      | .option .help => some .help
      | .overfull => some .usageError
      | _ => none

/-- The script, given the words before a double dash and those behind it, if there is one. At most one
operand may be given; a double dash has to stand next to it or in its place. -/
def script? (before : List (String × Word)) (behind : Option (List String)) :
    Option (Option String) :=
  let operands := (before.filter (·.2 == .operand)).map (·.1)
  match operands, behind.getD [] with
  | [], [] => some none
  | [], [s] => some (some s)
  | [s], [] =>
    let last := (before.getLast?).map (·.2)
    if behind.isNone || last == some .operand then some (some s) else none
  | _, _ => none

def parse (args : List String) : Command :=
  let before := (args.takeWhile (· != "--")).map fun arg => (arg, classify arg)
  let behind :=
    match args.dropWhile (· != "--") with
    | [] => none
    | _ :: rest => some rest
  let words := before.map (·.2)
  match interruption? words with
  | some command => command
  | none =>
    if words.contains .unknown then
      .usageError
    else
      match script? before behind with
      | some script => .start script (words.contains (.option .noPrelude))
      | none => .usageError

def usage : String :=
  "usage: codebake [-h] [--no-prelude] [script]\n"

/-- What is shown on request. -/
def help : String :=
  usage ++ "
codebake lisp interpreter

positional arguments:
  script        file of forms to evaluate

options:
  -h, --help    show this help message and exit
  --no-prelude  skip loading prelude files
"

end CommandLine

/-- Runs a text as a script: the last value is written if there is one, and the answer is the exit
code. -/
def runScript (fuel : Nat) (code : String) : Run Nat :=
  tryCatch
    (do
      match ← evalText fuel code with
      | some v => write ((← shown v) ++ "\n")
      | none => pure ()
      return 0)
    (report 1)

def runFile (fuel : Nat) (files : Files) (p : Path) : Program Nat :=
  match files.read p with
  | .ok code => (runScript fuel code).program
  | .error e => throw (.load e)

/-- The whole program. The answer is the exit code. -/
def Command.run (fuel : Nat) (files : Files) (settings : Settings) (input : List Char) :
    Command → Program Nat
  | .help => do
    (write CommandLine.help).program
    return 0
  | .usageError => return 2
  | .start script noPrelude => do
    (if noPrelude then Prelude.none else .automatic).load fuel files settings
    match script with
    | some s => runFile fuel files (.ofString s)
    | none =>
      (ReadLoop.run fuel settings.prompt input).program
      return 0

end Bakehouse
