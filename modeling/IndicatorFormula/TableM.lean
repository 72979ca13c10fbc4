import IndicatorFormula.Series
import IndicatorFormula.Table

/-!
Actions on a table of series. An action may fail, and the table that it leaves is there whether it
fails or not.
-/

namespace IndicatorFormula

abbrev TableM (ε : Type) :=
  ExceptT ε (StateM (Table Series))

namespace TableM

variable {ε ε' α : Type} {table : Table Series}

/-- The table an action leaves where it fails as well as where it succeeds. -/
def left (action : TableM ε Unit) (table : Table Series) : Table Series :=
  (action.run.run table).2

/-- The table after an action that succeeds. -/
def outcome (action : TableM ε Unit) (table : Table Series) : Except ε (Table Series) :=
  (action.run.run table).1.map fun _ => action.left table

@[simp] theorem outcome_get_bind (f : Table Series → TableM ε Unit) :
    outcome (get >>= f) table = (f table).outcome table :=
  rfl

@[simp] theorem outcome_liftExcept_bind (x : Except ε α) (f : α → TableM ε Unit) :
    outcome (liftExcept x >>= f) table = x >>= fun a => (f a).outcome table := by
  cases x <;> rfl

@[simp] theorem outcome_modify (f : Table Series → Table Series) :
    outcome (modify f : TableM ε Unit) table = .ok (f table) :=
  rfl

@[simp] theorem outcome_pure : outcome (pure () : TableM ε Unit) table = .ok table :=
  rfl

@[simp] theorem outcome_adapt (f : ε → ε') (action : TableM ε Unit) :
    outcome (ExceptT.adapt f action) table = (action.outcome table).mapError f := by
  unfold outcome left
  change (((action.run.run table).1.mapError f).map fun _ => (action.run.run table).2) = _
  cases (action.run.run table).1 <;> rfl

theorem left_of_outcome {action : TableM ε Unit} {after : Table Series}
    (h : action.outcome table = .ok after) : action.left table = after := by
  unfold outcome at h
  cases hresult : (action.run.run table).1 with
  | error e =>
    rw [hresult] at h
    cases h
  | ok value =>
    rw [hresult] at h
    exact Except.ok.inj h

end TableM

end IndicatorFormula
