import IndicatorFormula.Session

/-!
Actions that fail leave no trace. An action that reads first and writes last is atomic, and every
statement and every step of a session is one.
-/

namespace IndicatorFormula

namespace TableM

variable {ε ε' α : Type} {action : TableM ε Unit}

/-- Where the action fails it leaves the table that it found. -/
def Atomic (action : TableM ε Unit) : Prop :=
  ∀ table e, action.outcome table = .error e → action.left table = table

theorem atomic_get_bind {f : Table Series → TableM ε Unit} (h : ∀ table, (f table).Atomic) :
    Atomic (get >>= f) :=
  fun table => h table table

theorem atomic_liftExcept_bind (x : Except ε α) {f : α → TableM ε Unit} (h : ∀ a, (f a).Atomic) :
    Atomic (liftExcept x >>= f) := by
  cases x with
  | error e => exact fun _ _ _ => rfl
  | ok a => exact h a

theorem atomic_modify (f : Table Series → Table Series) : Atomic (modify f : TableM ε Unit) :=
  fun _ _ h => nomatch h

theorem atomic_pure : Atomic (pure () : TableM ε Unit) :=
  fun _ _ h => nomatch h

theorem Atomic.adapt (h : action.Atomic) (f : ε → ε') : Atomic (ExceptT.adapt f action) := by
  intro table e' he'
  rw [outcome_adapt] at he'
  cases he : action.outcome table with
  | error e => exact h table e he
  | ok after =>
    rw [he] at he'
    cases he'

end TableM

theorem Statement.atomic_perform (inputs : Inputs) (s : Statement) :
    (s.perform inputs).Atomic := by
  cases s with
  | assign name value line =>
    refine TableM.atomic_get_bind fun table => ?_
    exact TableM.atomic_liftExcept_bind _ fun series => TableM.atomic_modify _
  | bare value line =>
    refine TableM.atomic_get_bind fun table => ?_
    exact TableM.atomic_liftExcept_bind _ fun series => TableM.atomic_pure

/-- Whatever the stage at which it fails, reading the text included. -/
theorem Session.Step.atomic_perform (inputs : Inputs) (step : Session.Step) :
    (step.perform inputs).Atomic := by
  cases step with
  | source text =>
    refine TableM.atomic_liftExcept_bind _ fun lexemes => ?_
    refine TableM.atomic_get_bind fun table => ?_
    refine TableM.atomic_liftExcept_bind _ fun s => ?_
    exact (s.atomic_perform inputs).adapt _
  | statement s => exact (s.atomic_perform inputs).adapt _
  | expression e =>
    refine TableM.atomic_get_bind fun table => ?_
    exact TableM.atomic_liftExcept_bind _ fun series => TableM.atomic_pure

end IndicatorFormula
