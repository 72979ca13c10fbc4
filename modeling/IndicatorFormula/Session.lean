import IndicatorFormula.Program

/-!
A session keeps the table between steps. A step is the text of one statement, a statement or an
expression. Steps that fail do not end the session.
-/

namespace IndicatorFormula

structure Session where
  inputs : Inputs
  table : Table Series

namespace Session

inductive Step
  | source (text : String)
  | statement (s : Statement)
  | expression (e : Expr)

def evaluate (session : Session) (e : Expr) : Except Failure Series :=
  (e.evaluate session.inputs session.table).mapError .unevaluable

/-- Only the first statement of a text is executed. The series of an expression is dropped. -/
def Step.perform (inputs : Inputs) : Step → TableM Failure Unit
  | source text => do
    let lexemes ← liftExcept ((Token.lexemes text).mapError Failure.unreadable)
    let scope := Program.scope (← get) (Token.lastLine lexemes)
    let s ← liftExcept ((Statement.parseWhole scope lexemes).result.mapError Failure.unreadable)
    (s.perform inputs).adapt .unevaluable
  | statement s => (s.perform inputs).adapt .unevaluable
  | expression e => do
    let _ ← liftExcept (evaluate ⟨inputs, ← get⟩ e)
    return ()

/-- The table after a step that succeeds. -/
def Step.outcome (session : Session) (s : Step) : Except Failure (Table Series) :=
  (s.perform session.inputs).outcome session.table

def enter (session : Session) (source : String) : Except Failure (Table Series) :=
  (Step.source source).outcome session

/-- The session goes on with the table that the step leaves. -/
def step (session : Session) (s : Step) : Session :=
  { session with table := (s.perform session.inputs).left session.table }

def steps (session : Session) (ss : List Step) : Session :=
  ss.foldl step session

/-! ## The outcome of each step -/

variable {session : Session}

theorem outcome_source (text : String) : (Step.source text).outcome session =
    (Token.lexemes text).mapError .unreadable >>= fun lexemes =>
      (Statement.parseWhole (Program.scope session.table (Token.lastLine lexemes))
        lexemes).result.mapError .unreadable >>= fun s =>
          (s.execute session.inputs session.table).mapError .unevaluable := by
  rw [Step.outcome, Step.perform, TableM.outcome_liftExcept_bind]
  refine bind_congr fun lexemes => ?_
  rw [TableM.outcome_get_bind, TableM.outcome_liftExcept_bind]
  refine bind_congr fun s => ?_
  rw [TableM.outcome_adapt, Statement.execute]

theorem outcome_statement (s : Statement) : (Step.statement s).outcome session =
    (s.execute session.inputs session.table).mapError .unevaluable := by
  rw [Step.outcome, Step.perform, TableM.outcome_adapt, Statement.execute]

theorem outcome_expression (e : Expr) : (Step.expression e).outcome session =
    session.evaluate e >>= fun _ => .ok session.table := by
  rw [Step.outcome, Step.perform, TableM.outcome_get_bind, TableM.outcome_liftExcept_bind]
  simp only [TableM.outcome_pure]

end Session

end IndicatorFormula
