import IndicatorFormula.Proofs.Session.Steps
import IndicatorFormula.Table.Lemmas

/-!
What a session keeps. Only an assignment that succeeds changes the table, and it changes one entry.
So the value of a name is what its last assignment computed from the table of that moment, whatever
failed before it or since (`last_write`).
-/

namespace IndicatorFormula.Session

variable {session : Session} {table : Table Series} {step : Step} {ss : List Step}
  {name : String} {s : Series}

/-- The step assigns the name, and comes to the series. -/
def Writes (session : Session) (step : Step) (name : String) (s : Series) : Prop :=
  ∃ value line, step.Runs session (.assign name value line) ∧
    value.evaluate session.inputs session.table = .ok s

def Unwritten (session : Session) (ss : List Step) (name : String) : Prop :=
  ∀ before step after, ss = before ++ step :: after →
    ∀ s, ¬(session.steps before).Writes step name s

/-- The last step that assigns the name comes to the series. -/
def LastWrite (session : Session) (ss : List Step) (name : String) (s : Series) : Prop :=
  ∃ before step after, ss = before ++ step :: after ∧ (session.steps before).Writes step name s ∧
    ((session.steps before).step step).Unwritten after name

/-! ## One step -/

theorem Writes.step_eq (h : session.Writes step name s) :
    session.step step = { session with table := session.table.insert name s } := by
  obtain ⟨value, line, hruns, hvalue⟩ := h
  have hexecute : (Statement.assign name value line).execute session.inputs session.table =
      .ok (session.table.insert name s) :=
    Statement.execute_assign_eq_ok_iff.2 ⟨s, hvalue, rfl⟩
  exact step_of_ok (hruns.outcome_eq.trans (congrArg _ hexecute))

theorem step_eq_or_writes (session : Session) (step : Step) :
    session.step step = session ∨ ∃ name s, session.Writes step name s := by
  rcases step_cases session step with h | ⟨s, table, hruns, hexecute, h⟩
  · exact .inl h
  · cases s with
    | assign name value line =>
      obtain ⟨s, hvalue, -⟩ := Statement.execute_assign_eq_ok_iff.1 hexecute
      exact .inr ⟨name, s, value, line, hruns, hvalue⟩
    | bare value line =>
      obtain ⟨-, rfl⟩ := Statement.execute_bare_eq_ok_iff.1 hexecute
      exact .inl h

theorem Step.Runs.step_bare {value : Expr} {line : Nat}
    (h : step.Runs session (.bare value line)) : session.step step = session := by
  have houtcome := h.outcome_eq
  cases hexecute : (Statement.bare value line).execute session.inputs session.table with
  | error e =>
    rw [hexecute] at houtcome
    exact step_of_error houtcome
  | ok table =>
    obtain ⟨-, rfl⟩ := Statement.execute_bare_eq_ok_iff.1 hexecute
    rw [hexecute] at houtcome
    exact step_of_ok houtcome

theorem step_expression (session : Session) (e : Expr) :
    session.step (.expression e) = session := by
  rcases step_cases session (.expression e) with h | ⟨s, table, hruns, -⟩
  · exact h
  · cases hruns

theorem writes_of_outcome {value : Expr} {line : Nat}
    (hruns : step.Runs session (.assign name value line)) (h : step.outcome session = .ok table) :
    ∃ s, value.evaluate session.inputs session.table = .ok s ∧
      table = session.table.insert name s := by
  rw [hruns.outcome_eq, mapError_eq_ok_iff] at h
  obtain ⟨s, hvalue, rfl⟩ := Statement.execute_assign_eq_ok_iff.1 h
  exact ⟨s, hvalue, rfl⟩

theorem get?_step_of_not_writes (h : ∀ s, ¬session.Writes step name s) :
    (session.step step).table.get? name = session.table.get? name := by
  rcases step_eq_or_writes session step with hstep | ⟨other, s, hwrites⟩
  · rw [hstep]
  · have hname : name ≠ other := by
      rintro rfl
      exact h s hwrites
    rw [hwrites.step_eq, Table.get?_insert, if_neg hname]

/-! ## Many steps -/

theorem steps_cons (session : Session) (step : Step) (ss : List Step) :
    session.steps (step :: ss) = (session.step step).steps ss :=
  rfl

theorem unwritten_nil (session : Session) (name : String) : session.Unwritten [] name := by
  intro before step after heq
  exact absurd heq.symm (List.append_ne_nil_of_right_ne_nil before (List.cons_ne_nil step after))

theorem unwritten_cons : session.Unwritten (step :: ss) name ↔
    (∀ s, ¬session.Writes step name s) ∧ (session.step step).Unwritten ss name := by
  constructor
  · intro h
    refine ⟨h [] step ss rfl, fun before later after heq => ?_⟩
    exact h (step :: before) later after (congrArg _ heq)
  · rintro ⟨hstep, hlater⟩ before later after heq
    cases before with
    | nil =>
      obtain ⟨rfl, -⟩ := List.cons.inj heq
      exact hstep
    | cons first before =>
      obtain ⟨rfl, hrest⟩ := List.cons.inj heq
      exact hlater before later after hrest

theorem LastWrite.cons (h : (session.step step).LastWrite ss name s) :
    session.LastWrite (step :: ss) name s := by
  obtain ⟨before, later, after, rfl, hwrites, hunwritten⟩ := h
  exact ⟨step :: before, later, after, rfl, hwrites, hunwritten⟩

theorem Unwritten.get?_steps (h : session.Unwritten ss name) :
    (session.steps ss).table.get? name = session.table.get? name := by
  induction ss generalizing session with
  | nil => rfl
  | cons step ss ih =>
    obtain ⟨hstep, hlater⟩ := unwritten_cons.1 h
    rw [steps_cons, ih hlater, get?_step_of_not_writes hstep]

theorem LastWrite.get?_steps (h : session.LastWrite ss name s) :
    (session.steps ss).table.get? name = some s := by
  obtain ⟨before, step, after, rfl, hwrites, hunwritten⟩ := h
  have hsplit : session.steps (before ++ step :: after) =
      ((session.steps before).step step).steps after :=
    List.foldl_append
  rw [hsplit, hunwritten.get?_steps, hwrites.step_eq, Table.get?_insert, if_pos rfl]

theorem unwritten_or_lastWrite (session : Session) (ss : List Step) (name : String) :
    session.Unwritten ss name ∨ ∃ s, session.LastWrite ss name s := by
  induction ss generalizing session with
  | nil => exact .inl (unwritten_nil session name)
  | cons step ss ih =>
    rcases ih (session.step step) with hlater | ⟨s, hlater⟩
    · by_cases hstep : ∃ s, session.Writes step name s
      · obtain ⟨s, hwrites⟩ := hstep
        exact .inr ⟨s, [], step, ss, rfl, hwrites, hlater⟩
      · exact .inl (unwritten_cons.2 ⟨not_exists.1 hstep, hlater⟩)
    · exact .inr ⟨s, hlater.cons⟩

/-- Whatever the steps are and however many fail, the table has the last value written to each name
and no other, and the inputs stay. -/
theorem last_write (inputs : Inputs) (ss : List Step) :
    (∀ (session : Session) (step : Step),
      (∀ e, step.outcome session = .error e → (session.step step).table = session.table) ∧
      (∀ e, step = .expression e → (session.step step).table = session.table) ∧
      (∀ value line, step.Runs session (.bare value line) →
        (session.step step).table = session.table) ∧
      ∀ name value line table, step.Runs session (.assign name value line) →
        step.outcome session = .ok table → (session.step step).table = table ∧
          ∃ s, value.evaluate session.inputs session.table = .ok s ∧ table.get? name = some s ∧
            ∀ other, other ≠ name → table.get? other = session.table.get? other) ∧
    (∀ name s, (steps ⟨inputs, .empty⟩ ss).table.get? name = some s ↔
      LastWrite ⟨inputs, .empty⟩ ss name s) ∧
    (∀ name, (steps ⟨inputs, .empty⟩ ss).table.get? name = none ↔
      Unwritten ⟨inputs, .empty⟩ ss name) ∧
    (steps ⟨inputs, .empty⟩ ss).inputs = inputs := by
  have hempty (name : String) (h : Unwritten ⟨inputs, .empty⟩ ss name) :
      (steps ⟨inputs, .empty⟩ ss).table.get? name = none :=
    h.get?_steps
  refine ⟨fun session step => ⟨fun e h => ?_, ?_, fun value line h => ?_, ?_⟩,
    fun name s => ⟨fun h => ?_, LastWrite.get?_steps⟩, fun name => ⟨fun h => ?_, hempty name⟩,
    inputs_steps ss⟩
  · rw [step_of_error h]
  · rintro e rfl
    rw [step_expression]
  · rw [h.step_bare]
  · intro name value line table hruns h
    obtain ⟨s, hvalue, rfl⟩ := writes_of_outcome hruns h
    refine ⟨by rw [step_of_ok h], s, hvalue, ?_, fun other hother => ?_⟩
    · rw [Table.get?_insert, if_pos rfl]
    · rw [Table.get?_insert, if_neg hother]
  · rcases unwritten_or_lastWrite ⟨inputs, .empty⟩ ss name with hunwritten | ⟨s', hlast⟩
    · rw [hempty name hunwritten] at h
      cases h
    · rw [hlast.get?_steps] at h
      cases h
      exact hlast
  · rcases unwritten_or_lastWrite ⟨inputs, .empty⟩ ss name with hunwritten | ⟨s, hlast⟩
    · exact hunwritten
    · rw [hlast.get?_steps] at h
      cases h

/-- The right side reads the old value, which stays where the division fails. -/
example : (steps ⟨⟨.ofList [("CLOSE", [3.0])], 1, List.forall_mem_singleton.2 rfl⟩, .empty⟩
    [.source "V:=CLOSE;", .source "V:=V*2;", .source "V:=V/0;"]).table =
      .ofList [("V", [6.0])] := by
  with_unfolding_all rfl

end IndicatorFormula.Session
