import Bakehouse.Console.Balance
import Bakehouse.Language.Interpreter

/-!
The read loop. Lines are collected until no parenthesis is open; what has been collected is then
submitted as one form. An error of the language is an answer like any other, and other errors end the
loop. Input that is still incomplete at the end is dropped.
-/

namespace Bakehouse

/-- The lines of a text, each with the line feed that ends it. -/
def lines : List Char → List (List Char)
  | [] => []
  | c :: cs =>
    if c == '\n' then
      [c] :: lines cs
    else
      match lines cs with
      | [] => [[c]]
      | line :: rest => (c :: line) :: rest

/-- Writes the error if it is one of the language, and passes it on otherwise. -/
def report {α : Type} (answer : α) (halt : Halt) : Run α := do
  match halt with
  | .error e =>
    if e.isRecoverable then
      write ("error: " ++ e.message ++ "\n")
      return answer
    else
      throw halt
  | .outOfFuel => throw halt

namespace ReadLoop

/-- Evaluates one form and writes its value. -/
def submit (fuel : Nat) (source : List Char) : Run Unit :=
  tryCatch
    (do
      let v ← evalOne fuel (String.ofList source)
      write ((← shown v) ++ "\n"))
    (report ())

/-- One more line; the answer is the input that waits for further lines. -/
def feed (fuel : Nat) (prompt : String) (pending line : List Char) : Run (List Char) := do
  let source := pending ++ line
  if 0 < parenDepth source then
    return source
  else
    if !(Text.strip source).isEmpty then
      submit fuel source
    write prompt
    return []

def run (fuel : Nat) (prompt : String) (input : List Char) : Run Unit := do
  write prompt
  let _ ← (lines input).foldlM (feed fuel prompt) []

end ReadLoop

end Bakehouse
