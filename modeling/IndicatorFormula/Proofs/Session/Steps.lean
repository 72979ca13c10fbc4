import IndicatorFormula.Proofs.Evaluation.Faults
import IndicatorFormula.Proofs.Session.Atomicity

/-!
One step of a session. A step that is no mere expression comes to a statement, which it is given or
which its text is read as (`Step.Runs`), and does what the statement does; any other step leaves
the session as it was (`step_cases`). The inputs stay.
-/

namespace IndicatorFormula.Session

variable {session : Session} {table : Table Series} {step : Step} {s : Statement}

/-- The statement a step comes to: the one it is given, or the first of its text. -/
inductive Step.Runs (session : Session) : Step → Statement → Prop
  | source {text : String} {lexemes : List Lexeme} {s : Statement}
    (hlexemes : Token.lexemes text = .ok lexemes)
    (hs : (Statement.parseWhole (Program.scope session.table (Token.lastLine lexemes))
      lexemes).result = .ok s) : Runs session (.source text) s
  | statement (s : Statement) : Runs session (.statement s) s

theorem outcome_source_of_lexemes {text : String} {lexemes : List Lexeme}
    (h : Token.lexemes text = .ok lexemes) : (Step.source text).outcome session =
      (Statement.parseWhole (Program.scope session.table (Token.lastLine lexemes))
        lexemes).result.mapError .unreadable >>= fun s =>
          (s.execute session.inputs session.table).mapError .unevaluable := by
  rw [outcome_source, h]
  rfl

theorem outcome_of_unreadable {text : String} {lexemes : List Lexeme} {e : SyntaxError}
    (hlexemes : Token.lexemes text = .ok lexemes)
    (he : (Statement.parseWhole (Program.scope session.table (Token.lastLine lexemes))
      lexemes).result = .error e) :
    (Step.source text).outcome session = .error (.unreadable e) := by
  rw [outcome_source_of_lexemes hlexemes, he]
  rfl

theorem Step.Runs.outcome_eq (h : step.Runs session s) :
    step.outcome session = (s.execute session.inputs session.table).mapError .unevaluable := by
  cases h with
  | source hlexemes hs =>
    rw [outcome_source_of_lexemes hlexemes, hs]
    rfl
  | statement s => exact outcome_statement s

theorem runs_of_source {text : String} (h : (Step.source text).outcome session = .ok table) :
    ∃ s, (Step.source text).Runs session s ∧
      s.execute session.inputs session.table = .ok table := by
  rw [outcome_source] at h
  obtain ⟨lexemes, hlexemes, h⟩ := except_bind_eq_ok_iff.1 h
  obtain ⟨s, hs, h⟩ := except_bind_eq_ok_iff.1 h
  exact ⟨s, .source (mapError_eq_ok_iff.1 hlexemes) (mapError_eq_ok_iff.1 hs),
    mapError_eq_ok_iff.1 h⟩

/-- A step that succeeds leaves the table as it was or executes a statement. -/
theorem runs_of_outcome (h : step.outcome session = .ok table) : table = session.table ∨
    ∃ s, step.Runs session s ∧ s.execute session.inputs session.table = .ok table := by
  cases step with
  | source text => exact .inr (runs_of_source h)
  | statement s =>
    rw [outcome_statement] at h
    exact .inr ⟨s, .statement s, mapError_eq_ok_iff.1 h⟩
  | expression e =>
    rw [outcome_expression] at h
    obtain ⟨series, -, h⟩ := except_bind_eq_ok_iff.1 h
    exact .inl (Except.ok.inj h).symm

theorem step_of_error {e : Failure} (h : step.outcome session = .error e) :
    session.step step = session := by
  rw [Session.step, step.atomic_perform session.inputs session.table e h]

theorem step_of_ok (h : step.outcome session = .ok table) :
    session.step step = { session with table := table } := by
  rw [Session.step, TableM.left_of_outcome h]

theorem step_cases (session : Session) (step : Step) : session.step step = session ∨
    ∃ s table, step.Runs session s ∧ s.execute session.inputs session.table = .ok table ∧
      session.step step = { session with table := table } := by
  cases h : step.outcome session with
  | error e => exact .inl (step_of_error h)
  | ok table =>
    rcases runs_of_outcome h with rfl | ⟨s, hruns, hs⟩
    · exact .inl (step_of_ok h)
    · exact .inr ⟨s, table, hruns, hs, step_of_ok h⟩

theorem inputs_step (s : Step) : (session.step s).inputs = session.inputs := by
  rcases step_cases session s with h | ⟨s, table, -, -, h⟩ <;> rw [h]

theorem inputs_steps (ss : List Step) : (session.steps ss).inputs = session.inputs := by
  induction ss generalizing session with
  | nil => rfl
  | cons s ss ih => exact ih.trans (inputs_step s)

end IndicatorFormula.Session
