import Bakehouse.Escape
import Bakehouse.Pattern.Tiling
import Bakehouse.Payload.Numeral

namespace Bakehouse.Pattern

open Bakehouse.Text

inductive Part where
  | literal (c : Char)
  | group (name : List Char)
deriving Repr, DecidableEq

/-- The name of the group reference that a dollar sign starts, and the text after the reference, given
the text after the dollar sign. -/
def reference? (cs : List Char) : Option (List Char × List Char) :=
  match cs with
  | '\x7b' :: inner =>
    match inner.takeWhile isWord, inner.dropWhile isWord with
    | c :: name, '\x7d' :: rest => some (c :: name, rest)
    | _, _ => none
  | _ =>
    match cs.takeWhile isWord with
    | c :: name => some (c :: name, cs.dropWhile isWord)
    | [] => none

theorem length_dropWhile_le (holds : Char → Bool) (cs : List Char) :
    (cs.dropWhile holds).length ≤ cs.length :=
  (List.dropWhile_suffix holds).length_le

theorem length_le_of_reference? {cs name rest : List Char} (h : reference? cs = some (name, rest)) :
    rest.length ≤ cs.length := by
  unfold reference? at h
  split at h
  · rename_i inner
    have hinner := length_dropWhile_le isWord inner
    split at h
    · rename_i hdrop
      injection h with h
      injection h with _ hrest
      rw [hdrop, hrest, List.length_cons] at hinner
      rw [List.length_cons]
      omega
    · exact nomatch h
  · split at h
    · injection h with h
      injection h with _ hrest
      rw [← hrest]
      exact length_dropWhile_le isWord cs
    · exact nomatch h

/-- The parts of a template, from left to right. -/
def parts : List Char → List Part
  | [] => []
  | '$' :: '$' :: cs => .literal '$' :: parts cs
  | '$' :: cs =>
    match _h : reference? cs with
    | some (name, rest) => .group name :: parts rest
    | none => .literal '$' :: parts cs
  | c :: cs => .literal c :: parts cs
termination_by cs => cs.length
decreasing_by
  · simp only [List.length_cons]
    omega
  · exact Nat.lt_succ_of_le (length_le_of_reference? _h)
  · exact Nat.lt_succ_self _
  · exact Nat.lt_succ_self _

/-- The number of the group that a reference names: a run of ASCII digits is a number, anything else
a name. -/
def Compiled.groupNumber (p : Compiled) (name : List Char) : Except Escape (Option Nat) :=
  if name.all isAsciiDigit then
    if Numeral.maxDigits < name.length then
      .error (.tooManyDigits name.length)
    else
      let n := Numeral.value 10 (name.map fun c => c.toNat - 48)
      .ok (if n ≤ p.groups then some n else none)
  else
    .ok (p.names.lookup (String.ofList name))

variable {α : Type} [TextUnit α]

/-- A group that does not exist, or took no part in the match, contributes nothing. -/
def Compiled.expandPart (p : Compiled) (text : Array α) (m : Match) :
    Part → Except Escape (List α)
  | .literal c => .ok [TextUnit.ofChar c]
  | .group name => (p.groupNumber name).map fun n? => n?.elim [] (m.group text)

def Compiled.expand (p : Compiled) (text : Array α) (template : List Char) (m : Match) :
    Except Escape (List α) :=
  ((parts template).mapM (p.expandPart text m)).map List.flatten

/-- The texts of all matches, one per line. -/
def Compiled.matchTexts (p : Compiled) (cs : List α) : List α :=
  let text := cs.toArray
  [TextUnit.ofChar '\n'].intercalate ((p.matchesIn text).map (·.text text))

/-- The text with every match replaced by the expansion of the template. -/
def Compiled.replace (p : Compiled) (template : List Char) (cs : List α) :
    Except Escape (List α) :=
  let text := cs.toArray
  let tiling := p.tiling text
  (tiling.tiles.mapM fun tile => p.expand text template tile.2).map tiling.fill

end Bakehouse.Pattern
