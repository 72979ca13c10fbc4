import IndicatorFormula.Token
import IndicatorFormula.Vocabulary

/-!
What can be wrong with a formula, and the text of each report. A syntax error is found while a
text is read, an evaluation error while its series are computed; both name a line. Input series of
different lengths are refused before either.
-/

namespace IndicatorFormula

/-- What the token after an operand inside brackets may be. -/
inductive Expectation
  | closing
  | separatorOrClosing
  deriving DecidableEq, Repr

def Expectation.text : Expectation → String
  | closing => "')'"
  | separatorOrClosing => "',' or ')'"

/-- Where a token was found, `none` stands for the end of the formula. -/
inductive SyntaxError
  | invalidCharacter (character : Char) (line : Nat)
  | unexpectedToken (found : Token) (line : Nat)
  | unexpectedEnd (line : Nat)
  | expectedToken (expected : Expectation) (found : Option Token) (line : Nat)
  | missingSemicolon (found : Option Token) (line : Nat)
  | reservedName (name : String) (line : Nat)
  | undefinedName (name : String) (line : Nat)
  | wrongArgumentCount (function : Builtin) (expected found : Nat) (line : Nat)
  | nonIntegerArgument (function : Builtin) (line : Nat)
  | nonPositiveArgument (function : Builtin) (value : Int) (line : Nat)
  deriving DecidableEq, Repr

inductive EvaluationError
  | badNumber (text : String) (line : Nat)
  | unboundInput (name : String) (line : Nat)
  | unboundSymbol (name : String) (line : Nat)
  | unimplemented (function : Builtin) (line : Nat)
  | malformedCall (function : Builtin) (line : Nat)
  | divisionByZero (index : Nat) (line : Nat)
  | lengthMismatch (operator : Operator) (left right : Nat) (line : Nat)
  deriving DecidableEq, Repr

/-- The input `name` has `found` points where the first input has `expected`. -/
structure UnevenInputs where
  name : String
  expected : Nat
  found : Nat
  deriving DecidableEq, Repr

/-- Why a program has no result. -/
inductive Failure
  | uneven (cause : UnevenInputs)
  | unreadable (cause : SyntaxError)
  | unevaluable (cause : EvaluationError)
  deriving DecidableEq, Repr

def onLine (line : Nat) (text : String) : String :=
  "Error on line " ++ toString line ++ ": " ++ text

def describeFound : Option Token → String
  | some token => token.quoted
  | none => "end of input"

namespace SyntaxError

def line : SyntaxError → Nat
  | invalidCharacter _ line | unexpectedToken _ line | unexpectedEnd line
  | expectedToken _ _ line | missingSemicolon _ line | reservedName _ line
  | undefinedName _ line | wrongArgumentCount _ _ _ line | nonIntegerArgument _ line
  | nonPositiveArgument _ _ line => line

def cause : SyntaxError → String
  | invalidCharacter c _ => "Invalid character '" ++ String.singleton c ++ "'."
  | unexpectedToken found _ => "Unexpected token: " ++ found.quoted ++ "."
  | unexpectedEnd _ => "Unexpected end of input."
  | expectedToken expected found _ =>
    "Expected " ++ expected.text ++ " but found " ++ describeFound found ++ "."
  | missingSemicolon found _ =>
    "Expected ';' after statement but found " ++ describeFound found ++ "."
  | reservedName name _ => "'" ++ name ++ "' is a reserved word."
  | undefinedName name _ => "Undefined variable or function: " ++ name ++ "."
  | wrongArgumentCount function expected found _ =>
    function.name ++ " expects " ++ toString expected ++ " arguments but " ++ toString found ++
      " were given."
  | nonIntegerArgument function _ =>
    "The second argument of " ++ function.name ++ " must be an integer literal."
  | nonPositiveArgument function value _ =>
    "The second argument of " ++ function.name ++ " must be a positive integer, found " ++
      toString value ++ "."

def message (e : SyntaxError) : String :=
  onLine e.line e.cause

end SyntaxError

namespace EvaluationError

def line : EvaluationError → Nat
  | badNumber _ line | unboundInput _ line | unboundSymbol _ line | unimplemented _ line
  | malformedCall _ line | divisionByZero _ line | lengthMismatch _ _ _ line => line

def cause : EvaluationError → String
  | badNumber text _ => "'" ++ text ++ "' is not a valid number."
  | unboundInput name _ => "Undefined variable: " ++ name ++ "."
  | unboundSymbol name _ => "Undefined symbol: " ++ name ++ "."
  | unimplemented function _ => "Undefined function: " ++ function.name ++ "."
  | malformedCall function _ => "Malformed call to " ++ function.name ++ "."
  | divisionByZero index _ => "Division by zero at index " ++ toString index ++ "."
  | lengthMismatch operator left right _ =>
    "Series length mismatch for '" ++ operator.text ++ "': " ++ toString left ++ " vs " ++
      toString right ++ "."

def message (e : EvaluationError) : String :=
  onLine e.line e.cause

end EvaluationError

def UnevenInputs.message (e : UnevenInputs) : String :=
  "Input series '" ++ e.name ++ "' has length " ++ toString e.found ++ ", expected " ++
    toString e.expected ++ "."

def Failure.message : Failure → String
  | uneven e => e.message
  | unreadable e => e.message
  | unevaluable e => e.message

end IndicatorFormula
