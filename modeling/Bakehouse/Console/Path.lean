import Bakehouse.Text.Blank

namespace Bakehouse

/-- The slashes at the start of a path: a path may start at the working folder, or at one of two
roots. -/
inductive Anchor where
  | here
  | slash
  | doubleSlash
deriving Repr, DecidableEq

def Anchor.text : Anchor → String
  | here => ""
  | slash => "/"
  | doubleSlash => "//"

/-- A path without the parts that say nothing. -/
structure Path where
  anchor : Anchor
  parts : List String
deriving Repr, DecidableEq

namespace Path

def isSlash (c : Char) : Bool := c == '/'

/-- More than two slashes are as good as one. -/
def anchorOf (cs : List Char) : Anchor :=
  match (cs.takeWhile isSlash).length with
  | 0 => .here
  | 2 => .doubleSlash
  | _ => .slash

/-- Reads a path; empty parts and parts that are a single dot are left out. -/
def ofString (s : String) : Path :=
  let cs := s.toList
  let parts := (Text.pieces isSlash cs).map String.ofList
  ⟨anchorOf cs, parts.filter fun part => part ≠ "" ∧ part ≠ "."⟩

/-- The written form; the working folder itself is a dot. -/
def text (p : Path) : String :=
  if p.anchor = .here ∧ p.parts = [] then "." else p.anchor.text ++ "/".intercalate p.parts

/-- What has this name in a folder. -/
def child (p : Path) (name : String) : Path :=
  { p with parts := p.parts ++ [name] }

end Path

/-- What is found at a path: nothing, a file on the way where a folder is needed, a file, or a folder
with the names in it. -/
inductive Entry where
  | missing
  | blocked
  | file (content : List UInt8)
  | folder (names : List String)
deriving Repr, DecidableEq

abbrev Files := Path → Entry

/-- Files and folders below a working folder, by their parts. Folders on the way to them need not be
listed. -/
structure FileTree where
  files : List (List String × List UInt8)
  folders : List (List String)
deriving Repr, DecidableEq

namespace FileTree

def empty : FileTree := ⟨[], []⟩

def listed (t : FileTree) : List (List String) :=
  t.files.map (·.1) ++ t.folders

def isFolder (t : FileTree) (place : List String) : Bool :=
  place.isEmpty || t.listed.any fun parts => place.isPrefixOf parts

/-- The names in a folder. -/
def names (t : FileTree) (place : List String) : List String :=
  (t.listed.filterMap fun parts =>
    if place.isPrefixOf parts then parts[place.length]? else none).eraseDups

def entry (t : FileTree) (place : List String) : Entry :=
  match t.files.lookup place with
  | some content => .file content
  | none => if t.isFolder place then .folder (t.names place) else .missing

/-- Follows the parts of a path from a place in the tree; `none` is a place above it, where there are
folders but nothing is known to be in them. -/
def follow (t : FileTree) : Option (List String) → List String → Entry
  | none, [] => .folder []
  | some place, [] => t.entry place
  | none, part :: rest => if part = ".." then t.follow none rest else .missing
  | some place, part :: rest =>
    match t.entry place with
    | .folder _ =>
      if part = ".." then
        t.follow (if place.isEmpty then none else some place.dropLast) rest
      else
        t.follow (some (place ++ [part])) rest
    | .file _ => .blocked
    | found => found

/-- What a path leads to when the top of the tree is the working folder. -/
def lookup (t : FileTree) (p : Path) : Entry :=
  t.follow (if p.anchor = .here then some [] else none) p.parts

end FileTree

end Bakehouse
