import IndicatorFormula.Proofs.Evaluation.Length
import IndicatorFormula.Proofs.Session.Steps

/-!
Alignment over whole sessions: whatever is entered, every series of the table has a point for each
point of the inputs, and no operator ever meets series of different lengths
(`Session.aligned_of_steps`).
-/

namespace IndicatorFormula

variable {inputs : Inputs} {table : Table Series}

def EvaluationError.IsLengthMismatch (error : EvaluationError) : Prop :=
  ∃ op left right line, error = .lengthMismatch op left right line

theorem Series.exists_combine_eq_lengthMismatch_iff {op : Operator} {line : Nat} {l r : Series} :
    (∃ error, Series.combine op line l r = .error error ∧ error.IsLengthMismatch) ↔
      l.length ≠ r.length := by
  constructor
  · rintro ⟨error, h, op', left, right, line', rfl⟩
    rcases Series.combine_eq_error_iff.1 h with ⟨hlength, -⟩ | ⟨-, -, index, -, hindex⟩
    · exact hlength
    · cases hindex
  · intro hlength
    exact ⟨_, Series.combine_eq_error_iff.2 (.inl ⟨hlength, rfl⟩), _, _, _, _, rfl⟩

/-- The two operands of an operator are as long as the inputs, so they are equally long. -/
theorem Expr.not_isLengthMismatch_of_faults {e : Expr} {error : EvaluationError}
    (hmeasures : inputs.Measures table) (h : e.Faults inputs table error) :
    ¬error.IsLengthMismatch := by
  rintro ⟨op', left', right', line', rfl⟩
  cases h with
  | operands hl hr h =>
    have hlength := Series.exists_combine_eq_lengthMismatch_iff.1 ⟨_, h, _, _, _, _, rfl⟩
    rw [length_of_evaluate hmeasures hl, length_of_evaluate hmeasures hr] at hlength
    exact hlength rfl

theorem Expr.aligned_of_evaluate (hmeasures : inputs.Measures table) (e : Expr) :
    (∃ s, e.evaluate inputs table = .ok s ∧ s.length = inputs.length) ∨
      ∃ error, e.evaluate inputs table = .error error ∧ ¬error.IsLengthMismatch := by
  cases h : e.evaluate inputs table with
  | ok s => exact .inl ⟨s, rfl, length_of_evaluate hmeasures h⟩
  | error error =>
    obtain ⟨node, -, hfaults⟩ := exists_faults_of_evaluate h
    exact .inr ⟨error, rfl, not_isLengthMismatch_of_faults hmeasures hfaults⟩

theorem Statement.aligned_of_execute (hmeasures : inputs.Measures table) (s : Statement) :
    (∃ after, s.execute inputs table = .ok after ∧ inputs.Measures after) ∨
      ∃ error, s.execute inputs table = .error error ∧ ¬error.IsLengthMismatch := by
  cases h : s.execute inputs table with
  | ok after => exact .inl ⟨after, rfl, hmeasures.execute h⟩
  | error error =>
    obtain ⟨node, -, hfaults⟩ :=
      Expr.exists_faults_of_evaluate (Statement.execute_eq_error_iff.1 h)
    exact .inr ⟨error, rfl, Expr.not_isLengthMismatch_of_faults hmeasures hfaults⟩

namespace Session

variable {session : Session}

theorem reaches_step (h : session.inputs.Reaches session.table) (s : Step) :
    session.inputs.Reaches (session.step s).table := by
  rcases step_cases session s with hs | ⟨st, table, -, hexecute, hs⟩
  · rwa [hs]
  · rw [hs]
    exact h.execute hexecute

theorem reaches_steps (h : session.inputs.Reaches session.table) (ss : List Step) :
    session.inputs.Reaches (session.steps ss).table := by
  induction ss generalizing session with
  | nil => exact h
  | cons s ss ih =>
    have hstep := reaches_step h s
    rw [← inputs_step s] at hstep ⊢
    exact ih hstep

end Session

namespace Program

variable {endLine : Nat} {lexemes : List Lexeme} {final : Table Series}

theorem reaches_of_runLexemes (hreaches : inputs.Reaches table)
    (h : runLexemes inputs endLine table lexemes = .ok final) : inputs.Reaches final := by
  fun_induction runLexemes inputs endLine table lexemes with
  | case1 table lexemes hempty =>
    cases h
    exact hreaches
  | case2 | case3 => cases h
  | case4 table lexemes hempty statement s hs after hafter ih =>
    exact ih (hreaches.execute hafter) h

theorem reaches_of_run {source : String} {given : Table Series}
    (h : run source given = .ok final) :
    ∃ inputs, Inputs.ofTable given = .ok inputs ∧ inputs.Reaches final := by
  unfold run at h
  split at h
  · cases h
  · next inputs hinputs =>
    refine ⟨inputs, hinputs, ?_⟩
    unfold runSource at h
    split at h
    · cases h
    · exact reaches_of_runLexemes .empty h

end Program

namespace Session

theorem aligned_of_steps (inputs : Inputs) (ss : List Step) :
    let session := steps ⟨inputs, .empty⟩ ss
    (session.inputs = inputs ∧
      ∀ name s, session.table.get? name = some s → s.length = inputs.length) ∧
    (∀ e : Expr, (∃ s, e.evaluate inputs session.table = .ok s ∧ s.length = inputs.length) ∨
      ∃ error, e.evaluate inputs session.table = .error error ∧ ¬error.IsLengthMismatch) ∧
    (∀ s : Statement,
      (∃ after, s.execute inputs session.table = .ok after ∧ inputs.Measures after) ∨
        ∃ error, s.execute inputs session.table = .error error ∧ ¬error.IsLengthMismatch) ∧
    (∀ op line l r, (∃ error, Series.combine op line l r = .error error ∧ error.IsLengthMismatch) ↔
      l.length ≠ r.length) ∧
    ∀ source given final, Program.run source given = .ok final →
      ∃ inputs, Inputs.ofTable given = .ok inputs ∧ inputs.Measures final := by
  have hstart : (⟨inputs, .empty⟩ : Session).inputs.Reaches .empty := .empty
  have hreaches : inputs.Reaches (steps ⟨inputs, .empty⟩ ss).table := reaches_steps hstart ss
  have hmeasures := hreaches.measures
  refine ⟨⟨inputs_steps ss, hmeasures⟩, Expr.aligned_of_evaluate hmeasures,
    Statement.aligned_of_execute hmeasures,
    fun op line l r => Series.exists_combine_eq_lengthMismatch_iff, ?_⟩
  intro source given final h
  obtain ⟨inputs, hinputs, hfinal⟩ := Program.reaches_of_run h
  exact ⟨inputs, hinputs, hfinal.measures⟩

end Session

end IndicatorFormula
