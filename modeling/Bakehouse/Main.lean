import Bakehouse.Console.CommandLine

/-!
The program as it is started from a shell. All decisions are made elsewhere; what stands here reads
the outside world and writes to it.
-/

namespace Bakehouse.Shell

/-- Enough for every program that ends within the memory of a machine. -/
def fuel : Nat := 1000000000

def entryAt (p : Path) : IO Entry := do
  let place := (← IO.currentDir) / p.text
  if ← place.isDir then
    return .folder ((← place.readDir).toList.map (·.fileName))
  else if ← place.pathExists then
    return .file (← IO.FS.readBinFile place).toList
  else
    return .missing

/-- What is at the paths and, where they are folders, at the prelude files in them. -/
def survey (paths : List Path) : IO Files := do
  let mut found : List (Path × Entry) := []
  for p in paths do
    let entry ← entryAt p
    found := (p, entry) :: found
    if let .folder names := entry then
      for name in names do
        if PreludeFile.hasSuffix name then
          found := (p.child name, ← entryAt (p.child name)) :: found
  return fun p => (found.lookup p).getD .missing

def filesNeeded (settings : Settings) (command : Command) : List Path :=
  let roots := settings.roots.filterMap fun
    | .packaged => none
    | .path p => some p
  let script :=
    match command with
    | .start (some s) _ => [Path.ofString s]
    | _ => []
  roots ++ script

def fail (failure : Failure) : IO UInt32 := do
  IO.eprintln failure.message
  return 1

/-- Writes what the program wrote since the last time. -/
def flush (s : Store) : IO Store := do
  IO.print s.output
  (← IO.getStdout).flush
  return { s with output := "" }

partial def converse (prompt : String) (pending : List Char) (s : Store) : IO UInt32 := do
  let line ← (← IO.getStdin).getLine
  if line.isEmpty then
    return 0
  let (outcome, s) := ReadLoop.feed fuel prompt pending line.toList s
  let s ← flush s
  match outcome with
  | .ok pending => converse prompt pending s
  | .error h => fail (.halt h)

def run (args : List String) : IO UInt32 := do
  let names := ["CODEBAKE_PRELUDE_PATH", "CODEBAKE_PROMPT", "CODEBAKE_LOG_LEVEL"]
  let values ← names.mapM fun name => return (name, ← IO.getEnv name)
  let settings := Settings.ofVariables fun name => (values.lookup name).join
  let command := CommandLine.parse args
  if command = .usageError then
    IO.eprint CommandLine.usage
  let files ← survey (filesNeeded settings command)
  let (outcome, s) := command.run fuel files settings [] (Store.initial [])
  let s ← flush s
  match outcome, command with
  | .error failure, _ => fail failure
  | .ok _, .start none _ => converse settings.prompt [] s
  | .ok code, _ => return UInt32.ofNat code

end Bakehouse.Shell

def main (args : List String) : IO UInt32 :=
  Bakehouse.Shell.run args
