import IndicatorFormula.Error
import IndicatorFormula.Expr.Parse

/-!
The layout of a formula is what carries no meaning in it: the lines its tokens stand on, and
whether an assignment is marked `:=` or `:`. A change of layout is a function of the lines and of
the marks. It passes from the lexemes to the trees that are read from them, which keep lines, and
to the errors, which keep lines and quote tokens.
-/

namespace IndicatorFormula

structure Relayout where
  line : Nat → Nat
  mark : String → String

/-- Everything moves down by as many lines. -/
def Relayout.down (lines : Nat) : Relayout :=
  ⟨(· + lines), id⟩

variable (r : Relayout)

def Token.relayout : Token → Token
  | assign mark => assign (r.mark mark)
  | number text => number text
  | identifier text => identifier text
  | operator op => operator op
  | comma => comma
  | comparison text => comparison text
  | leftParen => leftParen
  | rightParen => rightParen
  | semicolon => semicolon

def Lexeme.relayout (lexeme : Lexeme) : Lexeme :=
  ⟨lexeme.token.relayout r, r.line lexeme.line⟩

mutual

def Expr.relayout : Expr → Expr
  | .number text line => .number text (r.line line)
  | .input name line => .input name (r.line line)
  | .symbol name line => .symbol name (r.line line)
  | .binary op left right line => .binary op (relayout left) (relayout right) (r.line line)
  | .call f arguments line => .call f (relayoutAll arguments) (r.line line)

def Expr.relayoutAll : List Expr → List Expr
  | [] => []
  | e :: es => relayout e :: relayoutAll es

end

def Statement.relayout : Statement → Statement
  | assign name value line => assign name (value.relayout r) (r.line line)
  | bare value line => bare (value.relayout r) (r.line line)

def SyntaxError.relayout : SyntaxError → SyntaxError
  | invalidCharacter c line => invalidCharacter c (r.line line)
  | unexpectedToken found line => unexpectedToken (found.relayout r) (r.line line)
  | unexpectedEnd line => unexpectedEnd (r.line line)
  | expectedToken expected found line =>
    expectedToken expected (found.map (Token.relayout r)) (r.line line)
  | missingSemicolon found line => missingSemicolon (found.map (Token.relayout r)) (r.line line)
  | reservedName name line => reservedName name (r.line line)
  | undefinedName name line => undefinedName name (r.line line)
  | wrongArgumentCount f expected found line => wrongArgumentCount f expected found (r.line line)
  | nonIntegerArgument f line => nonIntegerArgument f (r.line line)
  | nonPositiveArgument f value line => nonPositiveArgument f value (r.line line)

def EvaluationError.relayout : EvaluationError → EvaluationError
  | badNumber text line => badNumber text (r.line line)
  | unboundInput name line => unboundInput name (r.line line)
  | unboundSymbol name line => unboundSymbol name (r.line line)
  | unimplemented f line => unimplemented f (r.line line)
  | malformedCall f line => malformedCall f (r.line line)
  | divisionByZero index line => divisionByZero index (r.line line)
  | lengthMismatch op left right line => lengthMismatch op left right (r.line line)

def Failure.relayout : Failure → Failure
  | uneven cause => uneven cause
  | unreadable cause => unreadable (cause.relayout r)
  | unevaluable cause => unevaluable (cause.relayout r)

def Scope.relayout (scope : Scope) : Scope :=
  ⟨scope.names, r.line scope.endLine⟩

def Parsed.relayout {α : Type} (f : α → α) (p : Parsed α) : Parsed α :=
  ⟨(p.result.map f).mapError (SyntaxError.relayout r), p.rest.map (Lexeme.relayout r)⟩

namespace Expr

theorem relayoutAll_eq_map (es : List Expr) : relayoutAll r es = es.map (relayout r) := by
  induction es with
  | nil => rw [relayoutAll, List.map_nil]
  | cons e es ih => rw [relayoutAll, List.map_cons, ih]

theorem relayout_call (f : Builtin) (es : List Expr) (line : Nat) :
    (call f es line).relayout r = call f (es.map (relayout r)) (r.line line) := by
  rw [relayout, relayoutAll_eq_map]

@[simp] theorem integerLiteral?_relayout (e : Expr) :
    (e.relayout r).integerLiteral? = e.integerLiteral? := by
  cases e <;> rfl

end Expr

end IndicatorFormula
