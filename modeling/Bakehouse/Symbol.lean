import Bakehouse.Text.Quoted

namespace Bakehouse

structure Symbol where
  name : String
  nonempty : name ≠ ""
deriving DecidableEq

namespace Symbol

def ofString? (name : String) : Option Symbol :=
  if h : name = "" then none else some ⟨name, h⟩

/-- The symbol spelled by a first character and the characters after it. -/
def ofChars (c : Char) (cs : List Char) : Symbol where
  name := String.ofList (c :: cs)
  nonempty := by
    intro h
    have hlist := congrArg String.toList h
    simp at hlist

def quote : Symbol := ⟨"quote", by decide⟩

/-- What stands for "nothing" where a value is needed. -/
def nil : Symbol := ⟨"nil", by decide⟩

def inspect (s : Symbol) : String :=
  "Symbol(" ++ Text.quoted s.name ++ ")"

end Symbol

end Bakehouse
