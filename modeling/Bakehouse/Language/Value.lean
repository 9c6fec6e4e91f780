import Bakehouse.Operation.Catalog
import Bakehouse.Scope

/-!
Values. Code is made of values too: a form becomes a value when it is taken up for evaluation. Dishes
are shared, so a value holds a handle; functions are compared by the identity they got when they were
made.
-/

namespace Bakehouse

inductive Builtin where
  | add
  | sub
  | equal
  | apply
  | first
  | rest
  | butlast
  | last
  | isEmpty
  | cons
  | dish
  | recipe
  | bake
  | print
deriving Repr, DecidableEq

namespace Builtin

def all : List Builtin :=
  [add, sub, equal, apply, first, rest, butlast, last, isEmpty, cons, dish, recipe, bake, print]

def symbol : Builtin → Symbol
  | add => ⟨"+", by decide⟩
  | sub => ⟨"-", by decide⟩
  | equal => ⟨"=", by decide⟩
  | apply => ⟨"apply", by decide⟩
  | first => ⟨"first", by decide⟩
  | rest => ⟨"rest", by decide⟩
  | butlast => ⟨"butlast", by decide⟩
  | last => ⟨"last", by decide⟩
  | isEmpty => ⟨"empty?", by decide⟩
  | cons => ⟨"cons", by decide⟩
  | dish => ⟨"dish", by decide⟩
  | recipe => ⟨"recipe", by decide⟩
  | bake => ⟨"bake", by decide⟩
  | print => ⟨"print", by decide⟩

end Builtin

/-- What a custom operation can find out about the payload and its arguments. -/
inductive Test where
  | isText
  | holds (payload : Payload)
  | given (argument : String)
deriving Repr, DecidableEq

/-- What a custom operation does, one thing at a time: append an argument to the payload, replace the
payload, spoil the dish, stop the program, or run more code. A handler takes over from an action that
ends in an error of the language. -/
inductive Action where
  | appendInteger (argument : String)
  | appendText (argument : String)
  | put (payload : Payload)
  | fail (message : String)
  | raise (message : String)
  | eval (code : String)
  | skip
  | both (first second : Action)
  | branch (test : Test) (yes no : Action)
  | attempt (body handler : Action)
deriving Repr, DecidableEq

inductive Procedure where
  | catalog (op : Catalog)
  | custom (actions : List Action)
deriving Repr, DecidableEq

structure Operation where
  name : String
  parameters : List (String × ArgumentType)
  procedure : Procedure
deriving Repr, DecidableEq

def Operation.arity (op : Operation) : Nat :=
  op.parameters.length

def Catalog.operation (op : Catalog) : Operation :=
  ⟨op.name, op.parameters, .catalog op⟩

/-- Functions that are not written in the language. An operation with parameters is configured by a
first call. -/
inductive Native where
  | builtin (b : Builtin)
  | operation (op : Operation)
  | configured (op : Operation) (bag : Arguments)
deriving Repr, DecidableEq

/-- The place of a dish in the store. -/
abbrev Handle := Nat

inductive Value where
  | number (x : Float)
  | boolean (b : Bool)
  | text (s : String)
  | symbol (s : Symbol)
  | list (items : List Value)
  | dish (handle : Handle)
  | lambda (identity : Nat) (parameters : List Symbol) (body : Value) (frame : FrameId)
  | native (identity : Nat) (function : Native)

def Value.isFunction : Value → Bool
  | .lambda _ _ _ _ => true
  | .native _ _ => true
  | _ => false

def Value.nil : Value := .symbol .nil

end Bakehouse
