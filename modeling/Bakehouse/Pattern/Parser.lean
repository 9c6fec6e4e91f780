import Bakehouse.Number.Literal
import Bakehouse.Pattern.Scanner
import Bakehouse.Payload.Numeral
import Bakehouse.Text.Blank
import Bakehouse.Text.Digit

namespace Bakehouse.Pattern

open Bakehouse.Text (isAsciiDigit isAsciiLetter)

def isOctal (c : Char) : Bool :=
  '0' ≤ c && c ≤ '7'

def isHex (c : Char) : Bool :=
  isAsciiDigit c || ('a' ≤ c && c ≤ 'f') || ('A' ≤ c && c ≤ 'F')

/-- The value of a run of digits, all of them valid in the radix. -/
def numeral (radix : Nat) (cs : List Char) : Nat :=
  Numeral.value radix (cs.map fun c => (Numeral.digit? c).getD 0)

/-- A run of decimal digits, unless it is longer than numerals may be. -/
def decimal (cs : List Char) : Scan Nat :=
  if Numeral.maxDigits < cs.length then throw (.escape (.tooManyDigits cs.length))
  else return numeral 10 cs

def modeOf (flags : List Char) : Mode where
  ignoreCase := flags.contains 'i'
  multiline := flags.contains 'm'
  dotAll := flags.contains 's'
  ascii := flags.contains 'a'

/-- The characters with an escape of their own. -/
def controlEscape? (c : Char) : Option Nat :=
  [('a', 7), ('b', 8), ('f', 12), ('n', 10), ('r', 13), ('t', 9), ('v', 11), ('\\', 92)].lookup c

def categoryEscape? (c : Char) : Option SetItem :=
  [('d', SetItem.category .digit false), ('D', .category .digit true),
    ('s', .category .blank false), ('S', .category .blank true),
    ('w', .category .word false), ('W', .category .word true)].lookup c

def anchorEscape? (c : Char) : Option Anchor :=
  [('A', Anchor.textStart), ('b', .boundary), ('B', .notBoundary), ('Z', .textStop)].lookup c

def escapeText (cs : List Char) : String :=
  String.ofList ('\\' :: cs)

/-- A code point given by exactly `count` hexadecimal digits. -/
def hexEscape (c : Char) (count : Nat) : Scan Nat := do
  let ds ← takeClass isHex count
  let size := ds.length + 2
  if ds.length != count then
    failBack (.incompleteEscape (escapeText (c :: ds))) size
  else if 0x10ffff < numeral 16 ds then
    failBack (.badEscape (escapeText (c :: ds))) size
  else
    return numeral 16 ds

/-- A character given by its name. -/
def namedEscape : Scan Nat := do
  if ← accept '\x7b' then
    let name ← nameUntil '\x7d' "character name"
    match (← get).characters.lookup name with
    | some c => return c.toNat
    | none => failBack (.unknownCharacterName name) (name.length + 4)
  else
    failBack .missingBrace 0

/-- The escapes that mean the same inside and outside a set. -/
def commonEscape? (c : Char) : Option (Scan Nat) :=
  if c == 'x' then some (hexEscape c 2)
  else if c == 'u' then some (hexEscape c 4)
  else if c == 'U' then some (hexEscape c 8)
  else if c == 'N' then some namedEscape
  else none

def octalCode (ds : List Char) : Scan Nat := do
  if 0o377 < numeral 8 ds then
    failBack (.octalTooLarge (escapeText ds)) (ds.length + 1)
  else
    return numeral 8 ds

/-- An escape without meaning stands for its character, but letters and digits are reserved. -/
def plainEscape (c : Char) : Scan Nat :=
  if isAsciiLetter c || isAsciiDigit c then failBack (.badEscape (escapeText [c])) 2
  else return c.toNat

/-- An escape inside a character set. -/
def setEscape (c : Char) : Scan SetItem := do
  match controlEscape? c, categoryEscape? c, commonEscape? c with
  | some code, _, _ => return .single code
  | none, some item, _ => return item
  | none, none, some code => return .single (← code)
  | none, none, none =>
    if isOctal c then
      let ds ← takeClass isOctal 2
      return .single (← octalCode (c :: ds))
    else
      return .single (← plainEscape c)

/-- A reference to a group that has been closed. -/
def groupReference (ds : List Char) (mode : Mode) : Scan Node := do
  let group := numeral 10 ds
  if group ≤ (← get).groups.size then
    if !(← isClosed group) then failBack .openGroup (ds.length + 1)
    else
      checkBehind group
      return .backref group mode
  else
    failBack (.invalidReference group) ds.length

/-- Three octal digits are a character; fewer, or other digits, are a reference. -/
def digitEscape (c : Char) (mode : Mode) : Scan Node := do
  match ← takeClass isAsciiDigit 1 with
  | [] => groupReference [c] mode
  | d :: _ =>
    if isOctal c && isOctal d then
      match ← takeClass isOctal 1 with
      | [] => groupReference [c, d] mode
      | e :: _ => return .char (.literal (← octalCode [c, d, e])) mode
    else
      groupReference [c, d] mode

/-- An escape outside a character set. -/
def escape (c : Char) (mode : Mode) : Scan Node := do
  match anchorEscape? c, categoryEscape? c, controlEscape? c, commonEscape? c with
  | some anchor, _, _, _ => return .anchor anchor mode
  | none, some item, _, _ => return .char (.set false [item]) mode
  | none, none, some code, _ => return .char (.literal code) mode
  | none, none, none, some code => return .char (.literal (← code)) mode
  | none, none, none, none =>
    if c == '0' then
      let ds ← takeClass isOctal 2
      return .char (.literal (numeral 8 ds)) mode
    else if isAsciiDigit c then
      digitEscape c mode
    else
      return .char (.literal (← plainEscape c)) mode

/-- One end of a range, or a member of its own. -/
def setMember : Piece → Scan SetItem
  | .plain c => return .single c.toNat
  | .escape c => setEscape c

def setRange (this that : Piece) (first last : SetItem) : Scan SetItem := do
  let bad := failBack (.badRange this.text that.text) (this.width + 1 + that.width)
  match first, last with
  | .single a, .single b => if b < a then bad else return .range a b
  | _, _ => bad

/-- The members of a set up to its closing bracket; a bracket in first place is a member. -/
def setItems (opening : Nat) : Nat → List SetItem → Scan (List SetItem)
  | 0, _ => throw (.error ⟨.outOfFuel, none⟩)
  | fuel + 1, items => do
    match ← take with
    | none => fail .unterminatedSet opening
    | some this =>
      if this == .plain ']' && !items.isEmpty then
        return items
      else
        let first ← setMember this
        if ← accept '-' then
          match ← take with
          | none => fail .unterminatedSet opening
          | some that =>
            if that == .plain ']' then
              return items ++ [first, .single 45]
            else
              let last ← setMember that
              setItems opening fuel (items ++ [← setRange this that first last])
        else
          setItems opening fuel (items ++ [first])

/-- A set with one character in it is that character. -/
def setTest (negated : Bool) (items : List SetItem) : CharTest :=
  match items.eraseDups with
  | [.single code] => if negated then .notLiteral code else .literal code
  | distinct => .set negated distinct

def characterSet (mode : Mode) : Scan Node := do
  let s ← get
  let negated ← accept '^'
  let items ← setItems (s.place - 1) (s.rest.length + 1) []
  return .char (setTest negated items) mode

/-- Numbers of rounds from this one on are refused. -/
def maxRepeat : Nat := 4294967295

def repeatCount (ds : List Char) : Scan Nat := do
  let n ← decimal ds
  if maxRepeat ≤ n then throw (.error ⟨.repeatTooLarge, none⟩) else return n

/-- The bounds between braces, or nothing if the braces hold no bounds: then the opening brace is an
ordinary character and what follows it is read again. -/
def bounds (s : Scanner) : Scan (Option (Nat × Option Nat)) := do
  if s.rest.head? == some (.plain '\x7d') then
    return none
  else
    let low ← takeClass isAsciiDigit s.rest.length
    let high ←
      if ← accept ',' then takeClass isAsciiDigit s.rest.length else pure low
    if ← accept '\x7d' then
      let least ← if low.isEmpty then pure 0 else repeatCount low
      if high.isEmpty then
        return some (least, none)
      else
        let most ← repeatCount high
        if most < least then fail .repeatOrder s.place else return some (least, some most)
    else
      set s
      return none

/-- The least and greatest number of rounds that a quantifier asks for. -/
def quantifier (c : Char) : Scan (Option (Nat × Option Nat)) := do
  if c == '?' then return some (0, some 1)
  else if c == '*' then return some (0, none)
  else if c == '+' then return some (1, none)
  else bounds (← get)

/-- How a quantifier goes about its rounds, by the mark that may follow it. -/
def greedMark : Scan Greed := do
  if ← accept '?' then
    return .reluctant
  else if ← accept '+' then
    return .possessive
  else
    return .greedy

/-- Wraps the last item in a loop. -/
def repeated (place : Nat) (least : Nat) (most : Option Nat) : List Node → Scan (List Node)
  | [] => fail .nothingToRepeat (place - 1)
  | .anchor _ _ :: _ => fail .nothingToRepeat (place - 1)
  | .loop _ _ _ _ :: _ => fail .multipleRepeat (place - 1)
  | item :: items => do
    return .loop (← greedMark) least most item :: items

def flagLetters : List Char := ['i', 'L', 'm', 's', 'x', 'a', 't', 'u']

def isTypeFlag (c : Char) : Bool :=
  c == 'a' || c == 'u' || c == 'L'

/-- The piece as a flag letter; anything else is either an unknown flag or stands where `missing` was
expected. -/
def flagLetter (missing : Cause) (p : Piece) : Scan Char :=
  match p with
  | .plain c =>
    if flagLetters.contains c then return c
    else failBack (if Text.isLetter c then .unknownFlag else missing) 1
  | .escape _ => failBack missing 2

/-- Flags to turn on, up to the character that ends them. -/
def flagsOn : Nat → List Char → Char → Scan (List Char × Char)
  | 0, _, _ => throw (.error ⟨.outOfFuel, none⟩)
  | fuel + 1, on, c => do
    if c == 'L' then
      failBack .localeFlag 0
    else if isTypeFlag c && on.any fun d => isTypeFlag d && d != c then
      failBack .typeFlagsMixed 0
    else
      match ← take with
      | none => failBack .missingFlagEnd 0
      | some p =>
        if p == .plain ')' || p == .plain '-' || p == .plain ':' then
          return (on ++ [c], if p == .plain ')' then ')' else if p == .plain '-' then '-' else ':')
        else
          flagsOn fuel (on ++ [c]) (← flagLetter .missingFlagEnd p)

/-- Flags to turn off, up to the colon. -/
def flagsOff : Nat → List Char → Char → Scan (List Char)
  | 0, _, _ => throw (.error ⟨.outOfFuel, none⟩)
  | fuel + 1, off, c => do
    if isTypeFlag c then
      failBack .typeFlagOff 0
    else
      match ← take with
      | none => failBack .missingColon 0
      | some p =>
        if p == .plain ':' then return off ++ [c]
        else flagsOff fuel (off ++ [c]) (← flagLetter .missingColon p)

/-- The flags of a group, or nothing when they were set for the whole pattern. -/
def groupFlags (c : Char) : Scan (Option (List Char × List Char)) := do
  let fuel := (← get).rest.length + 1
  let (on, stop) ← if c == '-' then pure ([], '-') else flagsOn fuel [] c
  if stop == ')' then
    modify fun s => { s with flags := s.flags ++ on }
    return none
  else if on.contains 't' then
    failBack .globalFlagOn 1
  else
    let off ←
      if stop == '-' then
        match ← take with
        | none => failBack .missingFlag 0
        | some p => do flagsOff fuel [] (← flagLetter .missingFlag p)
      else
        pure []
    if off.contains 't' then failBack .globalFlagOff 1
    else if on.any off.contains then failBack .flagOnAndOff 1
    else return some (on, off)

/-- The flags in force inside a group. -/
def combine (flags on off : List Char) : List Char :=
  let kept := if on.any isTypeFlag then flags.filter (!isTypeFlag ·) else flags
  (kept ++ on).filter (!off.contains ·)

/-- Group numbers from this one on are refused. -/
def maxGroups : Nat := 1073741823

/-- An integer between blanks: an optional sign, then digits of any script, in which single
underscores may stand between digits. -/
def integer? (cs : List Char) : Option Int :=
  let (negative, body) :=
    match Text.strip cs with
    | '-' :: rest => (true, rest)
    | '+' :: rest => (false, rest)
    | rest => (false, rest)
  let runs := Text.pieces (· == '_') body
  if runs.any (·.isEmpty) then
    none
  else
    match runs.flatten.mapM Text.digitValue? with
    | none => none
    | some ds =>
      if Numeral.maxDigits < ds.length then none
      else if negative then some (-(Number.digitsValue ds : Int))
      else some (Number.digitsValue ds)

/-- The group that a condition asks for. -/
def conditionGroup : Scan Nat := do
  let name ← nameUntil ')' "group name"
  let back := name.length + 1
  if Text.isIdentifier name.toList then
    match (← get).names.lookup name with
    | some group => return group
    | none => failBack (.unknownGroupName name) back
  else
    match integer? name.toList with
    | none => failBack (.badGroupName name) back
    | some n =>
      let group := n.toNat
      if n < 0 then failBack (.badGroupName name) back
      else if group == 0 then failBack .badGroupNumber back
      else if maxGroups ≤ group then failBack (.invalidReference group) back
      else
        modify fun s =>
          if s.asked.any (·.1 == group) then s
          else { s with asked := s.asked ++ [(group, s.place - back)] }
        return group

/-- What a group turns out to be: a node, nothing at all (a comment), or flags for the whole
pattern. -/
inductive GroupResult where
  | node (n : Node)
  | nothing
  | flags

def sequenceOf (items : List Node) : Node :=
  items.reverse.foldr (fun p q => match q with
    | .empty => p
    | _ => .seq p q) .empty

def skipComment (opening : Nat) : Nat → Scan Unit
  | 0 => throw (.error ⟨.outOfFuel, none⟩)
  | fuel + 1 => do
    match ← take with
    | none => fail .unterminatedComment opening
    | some p => if p == .plain ')' then pure () else skipComment opening fuel

/-- Skips the rest of the line, as a comment between the parts of a pattern. -/
def skipLine : Nat → Scan Unit
  | 0 => pure ()
  | fuel + 1 => do
    match ← take with
    | none => pure ()
    | some p => if p == .plain '\n' then pure () else skipLine fuel

def isPatternBlank (c : Char) : Bool :=
  c == ' ' || Text.isAsciiBlank c

def closing (opening : Nat) : Scan Unit := do
  if ← accept ')' then pure () else fail .unterminatedGroup opening

def namedReference (mode : Mode) : Scan Node := do
  let name ← groupName ')'
  match (← get).names.lookup name with
  | none => failBack (.unknownGroupName name) (name.length + 1)
  | some group =>
    if !(← isClosed group) then failBack .openGroup (name.length + 1)
    else
      checkBehind group
      return .backref group mode

/-- How a group that starts with a question mark goes on. -/
inductive Opening where
  | named (name : String)
  | reference (n : Node)
  | plain
  | comment
  | look (behind negated : Bool)
  | condition
  | atomic
  | flags (first : Char)

def namedOpening (mode : Mode) : Scan Opening := do
  if ← accept '<' then
    return .named (← groupName '>')
  else if ← accept '=' then
    return .reference (← namedReference mode)
  else
    match ← take with
    | none => failBack .unexpectedEnd 0
    | some p => failBack (.unknownExtension ("P" ++ p.text)) (p.width + 2)

def behindOpening : Scan Opening := do
  match ← take with
  | none => failBack .unexpectedEnd 0
  | some p =>
    if p == .plain '=' then return .look true false
    else if p == .plain '!' then return .look true true
    else failBack (.unknownExtension ("<" ++ p.text)) (p.width + 2)

def groupOpening (mode : Mode) : Scan Opening := do
  match ← take with
  | none => failBack .unexpectedEnd 0
  | some p =>
    match p with
    | .plain 'P' => namedOpening mode
    | .plain ':' => return .plain
    | .plain '#' => return .comment
    | .plain '=' => return .look false false
    | .plain '!' => return .look false true
    | .plain '<' => behindOpening
    | .plain '(' => return .condition
    | .plain '>' => return .atomic
    | .plain c =>
      if flagLetters.contains c || c == '-' then return .flags c
      else failBack (.unknownExtension p.text) 2
    | .escape _ => failBack (.unknownExtension p.text) 3

mutual

/-- Branches separated by bars. Flags for the whole pattern may only stand before everything else, so
that the branches outside any group all have the flags known by then. -/
def alternation (fuel : Nat) (nested first : Bool) (flags : List Char) : Scan Node :=
  match fuel with
  | 0 => throw (.error ⟨.outOfFuel, none⟩)
  | fuel + 1 => do
    let branch ← sequence fuel first flags []
    if ← accept '|' then
      let s ← get
      return .alt branch (← alternation fuel nested false (if nested then flags else s.flags))
    else
      return branch

/-- Items one after another, the last one first in `items`. -/
def sequence (fuel : Nat) (first : Bool) (flags : List Char) (items : List Node) : Scan Node :=
  match fuel with
  | 0 => throw (.error ⟨.outOfFuel, none⟩)
  | fuel + 1 => do
    let mode := modeOf flags
    match ← peek with
    | none => return sequenceOf items
    | some (.escape c) =>
      let _ ← take
      sequence fuel first flags ((← escape c mode) :: items)
    | some (.plain c) =>
      if c == '|' || c == ')' then
        return sequenceOf items
      else
        let _ ← take
        if flags.contains 'x' && isPatternBlank c then
          sequence fuel first flags items
        else if flags.contains 'x' && c == '#' then
          skipLine ((← get).rest.length + 1)
          sequence fuel first flags items
        else if c == '[' then
          sequence fuel first flags ((← characterSet mode) :: items)
        else if c == '*' || c == '+' || c == '?' || c == '\x7b' then
          let place := (← get).place
          match ← quantifier c with
          | none => sequence fuel first flags (.char (.literal c.toNat) mode :: items)
          | some (least, most) =>
            sequence fuel first flags (← repeated place least most items)
        else if c == '.' then
          sequence fuel first flags (.char .any mode :: items)
        else if c == '^' then
          sequence fuel first flags (.anchor .lineStart mode :: items)
        else if c == '$' then
          sequence fuel first flags (.anchor .lineStop mode :: items)
        else if c == '(' then
          let start := (← get).place - 1
          match ← group fuel start flags with
          | .node n => sequence fuel first flags (n :: items)
          | .nothing => sequence fuel first flags items
          | .flags =>
            if !first || !items.isEmpty then fail .lateFlags start
            else sequence fuel first (← get).flags items
        else
          sequence fuel first flags (.char (.literal c.toNat) mode :: items)

/-- A group, from after its opening parenthesis at `start`. -/
def group (fuel : Nat) (start : Nat) (flags : List Char) : Scan GroupResult :=
  match fuel with
  | 0 => throw (.error ⟨.outOfFuel, none⟩)
  | fuel + 1 => do
    let capture (name : Option String) : Scan GroupResult := do
      let index ← openGroup name
      let body ← alternation fuel true false flags
      closing start
      closeGroup index body
      return .node (.capture index body)
    if ← accept '?' then
      match ← groupOpening (modeOf flags) with
      | .named name => capture (some name)
      | .reference n => return .node n
      | .comment =>
        skipComment start ((← get).rest.length + 1)
        return .nothing
      | .plain =>
        let body ← alternation fuel true false flags
        closing start
        return .node (.enclosed body)
      | .atomic =>
        let body ← alternation fuel true false flags
        closing start
        return .node (.atomic body)
      | .flags c =>
        match ← groupFlags c with
        | none => return .flags
        | some (on, off) =>
          let body ← alternation fuel true false (combine flags on off)
          closing start
          return .node (.enclosed body)
      | .look false negated =>
        let body ← alternation fuel true false flags
        closing start
        return .node (.ahead negated body)
      | .look true negated =>
        let outer := (← get).behind
        modify fun s => { s with behind := some (s.behind.getD s.groups.size) }
        let body ← alternation fuel true false flags
        modify fun s => { s with behind := outer }
        closing start
        let (least, most) := body.width (groupWidths (← get))
        return .node (.behind negated least most body)
      | .condition =>
        let index ← conditionGroup
        checkBehind index
        let yes ← sequence fuel false flags []
        let no ← if ← accept '|' then sequence fuel false flags [] else pure .empty
        if (← peek) == some (.plain '|') then
          failBack .threeBranches 0
        else
          closing start
          return .node (.condition index yes no)
    else
      capture none

end

/-- The widest lookbehind that can be matched. -/
def maxBehind : Nat := 4294967295

def Greed.operator : Greed → String
  | .greedy => "MAX_REPEAT"
  | .reluctant => "MIN_REPEAT"
  | .possessive => "POSSESSIVE_REPEAT"

/-- The first part of a pattern that cannot be matched, read from left to right: a lookbehind whose
width is not fixed, or any loop in a template. -/
def Node.refused? (template : Bool) : Node → Option Cause
  | .seq p q | .alt p q | .condition _ p q => (p.refused? template).or (q.refused? template)
  | .enclosed p | .capture _ p | .atomic p | .ahead _ p => p.refused? template
  | .loop greed _ _ p =>
    if template then some (.templateLoop greed.operator) else p.refused? template
  | .behind _ least most p =>
    if maxBehind < least then some .looksTooFarBehind
    else if least != most then some .lookbehindWidth
    else p.refused? template
  | _ => none

/-- Reads a whole pattern. -/
def pattern (fuel : Nat) : Scan Compiled := do
  checkDangling
  let root ← alternation fuel false true []
  let s ← get
  if s.flags.contains 'a' && s.flags.contains 'u' then
    throw (.escape .asciiAndUnicode)
  else if !s.rest.isEmpty then
    fail .unbalanced s.place
  else
    match s.asked.find? fun asked => s.groups.size < asked.1 with
    | some (group, place) => fail (.invalidReference group) place
    | none =>
      match root.refused? (s.flags.contains 't') with
      | some cause => throw (.error ⟨cause, none⟩)
      | none => return ⟨root, s.groups.size, s.names⟩

/-- The pattern that a text stands for. No text of that length takes as many steps as there is fuel. -/
def compile (characters : CharacterNames) (text : String) : Except Stop Compiled :=
  let (rest, dangling) := piecesOf text.toList
  let scanner : Scanner := ⟨characters, rest, 0, dangling, [], #[], [], none, []⟩
  (pattern (4 * rest.length + 8)).run' scanner

end Bakehouse.Pattern
