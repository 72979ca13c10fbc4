import IndicatorFormula.Operator

/-!
The words and marks of a formula. A number, a name, a comparison and an assignment mark keep the
text they were written with. Blanks and line feeds are passed over where a text is read and are no
tokens. A lexeme is a token with the line it stands on, counted from 1.
-/

namespace IndicatorFormula

inductive Token
  | number (text : String)
  | identifier (text : String)
  | operator (operator : Operator)
  | comma
  | comparison (text : String)
  | assign (text : String)
  | leftParen
  | rightParen
  | semicolon
  deriving DecidableEq, Repr

namespace Token

def text : Token → String
  | number text | identifier text | comparison text | assign text => text
  | operator op => op.text
  | comma => ","
  | leftParen => "("
  | rightParen => ")"
  | semicolon => ";"

def quoted (token : Token) : String :=
  "'" ++ token.text ++ "'"

end Token

structure Lexeme where
  token : Token
  line : Nat
  deriving DecidableEq, Repr

end IndicatorFormula
