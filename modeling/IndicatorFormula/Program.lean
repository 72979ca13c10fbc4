import IndicatorFormula.Evaluation
import IndicatorFormula.Statement.Parse
import IndicatorFormula.Token.Scan

/-!
Whole formulas. The statements are read and executed in turn: each is read against the names that
those before it assigned, and executed before the next is read.
-/

namespace IndicatorFormula

namespace Program

def scope (table : Table Series) (endLine : Nat) : Scope :=
  ⟨table.names, endLine⟩

/-- The table after the statements of a list of lexemes. -/
def runLexemes (inputs : Inputs) (endLine : Nat) (table : Table Series) (lexemes : List Lexeme) :
    Except Failure (Table Series) :=
  if lexemes.isEmpty then .ok table
  else
    let statement := Statement.parseWhole (scope table endLine) lexemes
    match _h : statement.result with
    | .error e => .error (.unreadable e)
    | .ok s =>
      match s.execute inputs table with
      | .error e => .error (.unevaluable e)
      | .ok table => runLexemes inputs endLine table statement.rest
termination_by lexemes.length
decreasing_by exact Statement.length_rest_lt_of_parseWhole_ok ‹_›

def runSource (inputs : Inputs) (source : String) : Except Failure (Table Series) :=
  match Token.lexemes source with
  | .error e => .error (.unreadable e)
  | .ok lexemes => runLexemes inputs (Token.lastLine lexemes) .empty lexemes

/-- The series a formula assigns, given the input series. -/
def run (source : String) (table : Table Series) : Except Failure (Table Series) :=
  match Inputs.ofTable table with
  | .error e => .error (.uneven e)
  | .ok inputs => runSource inputs source

end Program

end IndicatorFormula
