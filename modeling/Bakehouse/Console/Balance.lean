namespace Bakehouse

namespace Balance

/-- What a character belongs to. -/
inductive Region where
  | code
  | string
  | comment
deriving Repr, DecidableEq

/-- The parentheses that are open after the text, or -1 if one closes that was not open. -/
def depthFrom : Region → Nat → List Char → Int
  | _, depth, [] => depth
  | .comment, depth, c :: cs => depthFrom (if c == '\n' then .code else .comment) depth cs
  | .string, depth, c :: cs => depthFrom (if c == '"' then .code else .string) depth cs
  | .code, depth, c :: cs =>
    if c == '"' then depthFrom .string depth cs
    else if c == ';' then depthFrom .comment depth cs
    else if c == '(' then depthFrom .code (depth + 1) cs
    else if c == ')' then
      match depth with
      | 0 => -1
      | depth + 1 => depthFrom .code depth cs
    else depthFrom .code depth cs

end Balance

def parenDepth (cs : List Char) : Int :=
  Balance.depthFrom .code 0 cs

/-- Whether every parenthesis is closed, and none before it was opened. -/
def isBalanced (cs : List Char) : Bool :=
  parenDepth cs == 0

end Bakehouse
