import IndicatorFormula.Expr
import IndicatorFormula.Inputs
import IndicatorFormula.Series.Arithmetic
import IndicatorFormula.Series.Lag
import IndicatorFormula.Series.Window
import IndicatorFormula.TableM

/-!
The series of an expression, and what a statement does to the table. A number stands for the same
point at every moment. A call is checked before its argument is evaluated, and a binary node after
both of its operands.
-/

namespace IndicatorFormula

/-- The window function or the lag that a function stands for. -/
def Builtin.series? : Builtin → Option (Series → Int → Series)
  | ma => some Series.movingAverage
  | ref => some Series.lag
  | hhv => some Series.highest
  | llv => some Series.lowest
  | sma | wma | ema => none

namespace Expr

def evaluate (inputs : Inputs) (table : Table Series) : Expr → Except EvaluationError Series
  | number text line =>
    match Decimal.readFloat? text with
    | none => .error (.badNumber text line)
    | some x => .ok (Series.constant inputs.length x)
  | input name line =>
    match inputs.get? name with
    | none => .error (.unboundInput name line)
    | some s => .ok s
  | symbol name line =>
    match table.get? name with
    | none => .error (.unboundSymbol name line)
    | some s => .ok s
  | binary operator left right line => do
    let l ← evaluate inputs table left
    let r ← evaluate inputs table right
    Series.combine operator line l r
  | call function arguments line =>
    match function.series? with
    | none => .error (.unimplemented function line)
    | some f =>
      match arguments with
      | [argument, period] =>
        match period.integerLiteral? with
        | none => .error (.malformedCall function line)
        | some n => do
          let s ← evaluate inputs table argument
          .ok (f s n)
      | _ => .error (.malformedCall function line)

end Expr

namespace Statement

variable {inputs : Inputs} {table : Table Series}

/-- A bare expression is evaluated and dropped. -/
def perform (inputs : Inputs) : Statement → TableM EvaluationError Unit
  | assign name value _ => do
    let s ← liftExcept (value.evaluate inputs (← get))
    modify fun table => table.insert name s
  | bare value _ => do
    let _ ← liftExcept (value.evaluate inputs (← get))
    return ()

/-- The table after a statement that succeeds. -/
def execute (inputs : Inputs) (table : Table Series) (s : Statement) :
    Except EvaluationError (Table Series) :=
  (s.perform inputs).outcome table

theorem execute_assign (name : String) (value : Expr) (line : Nat) :
    (assign name value line).execute inputs table =
      value.evaluate inputs table >>= fun s => .ok (table.insert name s) := by
  rw [execute, perform, TableM.outcome_get_bind, TableM.outcome_liftExcept_bind]
  simp only [TableM.outcome_modify]

theorem execute_bare (value : Expr) (line : Nat) :
    (bare value line).execute inputs table =
      value.evaluate inputs table >>= fun _ => .ok table := by
  rw [execute, perform, TableM.outcome_get_bind, TableM.outcome_liftExcept_bind]
  simp only [TableM.outcome_pure]

end Statement

end IndicatorFormula
