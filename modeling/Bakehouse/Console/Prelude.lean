import Bakehouse.Console.ReadLoop
import Bakehouse.Console.Settings

namespace Bakehouse

/-- Why the text of a file cannot be had. -/
inductive LoadError where
  | missing
  | isFolder
  | notFolder
  | notText
  | nulInName
deriving Repr, DecidableEq

def LoadError.message : LoadError → String
  | missing => "no such file"
  | isFolder => "a folder, not a file"
  | notFolder => "a file where a folder is needed"
  | notText => "not a text in UTF-8"
  | nulInName => "embedded null byte"

/-- What ends a program early. -/
inductive Failure where
  | halt (h : Halt)
  | load (e : LoadError)
deriving Repr, DecidableEq

def Failure.message : Failure → String
  | halt (.error e) => e.message
  | halt .outOfFuel => "the program does not end"
  | load e => e.message

/-- A run that also reads files. -/
abbrev Program := ExceptT Failure (StateM Store)

def Run.program {α : Type} (r : Run α) : Program α :=
  ExceptT.adapt .halt r

/-- Ends every line with a line feed, where a carriage return with or without a line feed ends one
too. -/
def unifyLines : List Char → List Char
  | '\r' :: '\n' :: cs => '\n' :: unifyLines cs
  | '\r' :: cs => '\n' :: unifyLines cs
  | c :: cs => c :: unifyLines cs
  | [] => []

def Entry.text : Entry → Except LoadError String
  | missing => .error .missing
  | blocked => .error .notFolder
  | folder _ => .error .isFolder
  | file content =>
    match Utf8.decode? content with
    | some cs => .ok (String.ofList (unifyLines cs))
    | none => .error .notText

/-- The text of a file. No file has a name with a null character. -/
def Files.read (files : Files) (p : Path) : Except LoadError String :=
  if p.parts.any (·.toList.contains (Char.ofNat 0)) then .error .nulInName else (files p).text

/-- A file of a prelude. -/
inductive PreludeFile where
  | packaged
  | path (p : Path)
deriving Repr, DecidableEq

namespace PreludeFile

/-- The ending of the names of prelude files in a folder. -/
def suffix : String := ".cb"

def hasSuffix (name : String) : Bool :=
  suffix.toList.isSuffixOf name.toList

/-- The prelude files at a root: the root itself if it is a file, and the files of a folder in the
order of their names. -/
def atRoot (files : Files) : PreludeRoot → List PreludeFile
  | .packaged => [packaged]
  | .path p =>
    match files p with
    | .file _ => [path p]
    | .folder names => ((names.filter hasSuffix).mergeSort (· ≤ ·)).map fun name => path (p.child name)
    | _ => []

def all (files : Files) (settings : Settings) : List PreludeFile :=
  settings.roots.flatMap (atRoot files)

def read (files : Files) : PreludeFile → Except LoadError String
  | packaged => .ok coreSource
  | path p => files.read p

end PreludeFile

/-- What to run first: the files that the settings name, nothing, or a text. -/
inductive Prelude where
  | automatic
  | none
  | source (code : String)
deriving Repr, DecidableEq

/-- Each file is read when its turn comes. -/
def loadFile (fuel : Nat) (files : Files) (file : PreludeFile) : Program Unit :=
  match file.read files with
  | .ok code => (evalPrelude fuel code).program
  | .error e => throw (.load e)

def Prelude.load (fuel : Nat) (files : Files) (settings : Settings) : Prelude → Program Unit
  | .automatic => (PreludeFile.all files settings).forM (loadFile fuel files)
  | .none => pure ()
  | .source code => (evalPrelude fuel code).program

end Bakehouse
