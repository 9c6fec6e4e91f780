import Bakehouse.Reader.Token

namespace Bakehouse

inductive ArityError where
  | exactly (wanted got : Nat)
  | atLeast (wanted got : Nat)
  | lambda (wanted got : Nat)
  | operation (wanted got : Nat)
  | quote (got : Nat)
  | function
  | define (got : Nat)
  | defineFunction (got : Nat)
  | noTest
  | manyBranches (got : Nat)
  | noBranch (index : Nat)
  | noNumber
deriving Repr, DecidableEq

def ArityError.message : ArityError → String
  | exactly wanted got => s!"expected exactly {wanted} args. got {got}."
  | atLeast wanted got => s!"expected at least {wanted} args. got {got}."
  | lambda wanted got => s!"expected {wanted} arguments. got {got}."
  | operation wanted got => s!"expected exactly {wanted} arguments. got {got}."
  | quote got => s!"expected exactly 1 argument. got {got}."
  | function => "function definition must only have an argument list and a body."
  | define got => s!"def requires exactly 2 arguments. got {got}."
  | defineFunction got => s!"defn requires exactly 3 arguments. got {got}."
  | noTest => "expected test expression. got nothing."
  | manyBranches got => s!"if takes at most 3 forms. got {got}."
  | noBranch index => s!"expected branch. got '{index}'."
  | noNumber => "expected at least one number."

inductive TypeError where
  | symbolExpected (shown : String)
  | parameterList (shown : String)
  | functionExpected (shown : String)
  | lambdaEvaluated
  | functionEvaluated
  | booleanExpected (shown : String)
  | listExpected (shown : String)
  | numberExpected (shown : String)
  | applyFunction
  | applyList
  | emptyList
  | consList
  | dishText
  | stepExpected (shown : String)
  | bakeList
  | bakeDish
  | bakeSteps
  | dishExpected (operation : String)
  | integerArgument (shown : String)
  | textArgument (shown : String)
deriving Repr, DecidableEq

def TypeError.message : TypeError → String
  | symbolExpected shown => "expected symbol. got '" ++ shown ++ "'."
  | parameterList shown => "expected argument to be a list. got '" ++ shown ++ "'."
  | functionExpected shown => "expected first expression to be a function. got '" ++ shown ++ "'."
  | lambdaEvaluated => "cannot eval lambda function."
  | functionEvaluated => "cannot eval function."
  | booleanExpected shown => "expected boolean expression. got '" ++ shown ++ "'."
  | listExpected shown => "expected a list. got '" ++ shown ++ "'."
  | numberExpected shown => "expected a number. got '" ++ shown ++ "'."
  | applyFunction => "1st argument to 'apply' must be a function."
  | applyList => "2nd argument to 'apply' must be a list."
  | emptyList => "empty list"
  | consList => "expected 2nd argument to be a list."
  | dishText => "unsupported expression type for Dish. (must be string)"
  | stepExpected shown => "expected function. got '" ++ shown ++ "'."
  | bakeList => "expected list"
  | bakeDish => "expected Dish"
  | bakeSteps => "recipe must be list of functions."
  | dishExpected operation => "1st argument to '" ++ operation ++ "' must be a Dish"
  | integerArgument shown => "expected an integer. got " ++ shown ++ "."
  | textArgument shown => "expected a string. got " ++ shown ++ "."

/-- Where a message shows a value, the cause holds its text, because the value may change later. -/
inductive Error where
  | reading (e : ReadError)
  | unbound (name : String)
  | emptyApplication
  | borrowed
  | duplicateOperation (name : String)
  | raised (message : String)
  | arity (e : ArityError)
  | type (e : TypeError)
  | escape (e : Escape)
deriving Repr, DecidableEq

def Error.message : Error → String
  | reading e => e.message
  | unbound name => "unexpected symbol '" ++ name ++ "'."
  | emptyApplication => "expected non-empty list"
  | borrowed => "dish already borrowed"
  | duplicateOperation name => "duplicate operation name '" ++ name ++ "'"
  | raised message => message
  | arity e => e.message
  | type e => e.message
  | escape e => e.message

/-- Whether the error is one of the language. Other errors end the read loop. -/
def Error.isRecoverable : Error → Bool
  | reading (.escape _) | reading .emptyAtom | escape _ => false
  | _ => true

/-- How a run can end without a value: with an error, or for want of fuel. -/
inductive Halt where
  | error (e : Error)
  | outOfFuel
deriving Repr, DecidableEq

end Bakehouse
