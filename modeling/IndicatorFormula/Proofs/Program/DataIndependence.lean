import IndicatorFormula.Proofs.Evaluation.Emptied
import IndicatorFormula.Proofs.Inputs.Alignment
import IndicatorFormula.Proofs.Program.Steps

/-!
What the points of the inputs decide. A run that divides nothing by zero fails or succeeds by the
names of its inputs alone: with the same names, and any points, it gives the same names or the same
failure (`run_data_independent`). It shows on inputs that have no points.
-/

namespace IndicatorFormula

def Failure.IsZeroDivision : Failure → Prop
  | unevaluable e => e.IsZeroDivision
  | uneven _ | unreadable _ => False

theorem map_eq_map_cases {ε α β : Type} {x x' : Except ε α} {f : α → β} (h : x.map f = x'.map f) :
    (∃ a a', x = .ok a ∧ x' = .ok a' ∧ f a = f a') ∨ ∃ e, x = .error e ∧ x' = .error e := by
  cases x with
  | ok a =>
    cases x' with
    | ok a' => exact .inl ⟨a, a', rfl, rfl, Except.ok.inj h⟩
    | error e' => cases h
  | error e =>
    cases x' with
    | ok a' => cases h
    | error e' => exact .inr ⟨e, rfl, congrArg _ (Except.error.inj h).symm⟩

theorem Table.names_emptied (table : Table Series) : table.emptied.names = table.names :=
  names_map ..

theorem Table.emptied_eq {table table' : Table Series}
    (h : ∀ name, name ∈ table.names ↔ name ∈ table'.names) : table.emptied = table'.emptied := by
  apply ext_get?
  intro name
  have hname := h name
  rw [mem_names_iff, mem_names_iff] at hname
  rw [get?_emptied, get?_emptied]
  cases hs : table.get? name with
  | none =>
    cases hs' : table'.get? name with
    | none => rfl
    | some s' =>
      rw [hs, hs'] at hname
      cases hname.2 rfl
  | some s =>
    cases hs' : table'.get? name with
    | none =>
      rw [hs, hs'] at hname
      cases hname.1 rfl
    | some s' => rfl

theorem Inputs.ofTable_emptied (table : Table Series) :
    ofTable table.emptied = .ok (.emptied table) := by
  refine ofTable_eq_ok_iff.2 ⟨rfl, ?_⟩
  change 0 = ((table.entries.map fun entry => (entry.1, [])).head?.map
    fun entry : String × Series => entry.2.length).getD 0
  cases table.entries <;> rfl

namespace Program

variable {inputs : Inputs} {table : Table Series} {source : String}

theorem scope_emptied (table : Table Series) (endLine : Nat) :
    scope table.emptied endLine = scope table endLine := by
  rw [scope, scope, Table.names_emptied]

/-- The emptied table has the same names, so that the next statement is read the same. -/
theorem runLexemes_emptied (hmeasures : inputs.Measures table) (endLine : Nat)
    (lexemes : List Lexeme) :
    FailsBy Failure.IsZeroDivision (runLexemes inputs endLine table lexemes) ∨
      runLexemes (.emptied inputs.table) endLine table.emptied lexemes =
        (runLexemes inputs endLine table lexemes).map Table.emptied := by
  fun_induction runLexemes inputs endLine table lexemes with
  | case1 table lexemes hempty =>
    rw [List.isEmpty_iff.1 hempty, runLexemes_nil]
    exact .inr rfl
  | case2 table lexemes hempty statement e he =>
    exact .inr (runLexemes_of_unreadable hempty (scope_emptied table endLine ▸ he))
  | case3 table lexemes hempty statement s hs e he =>
    rcases s.execute_emptied hmeasures with ⟨e', he', hzero⟩ | hexecute
    · rw [he'] at he
      cases he
      exact .inl ⟨_, rfl, hzero⟩
    · rw [he] at hexecute
      exact .inr
        (runLexemes_of_unevaluable hempty (scope_emptied table endLine ▸ hs) hexecute)
  | case4 table lexemes hempty statement s hs after hafter ih =>
    rcases s.execute_emptied hmeasures with ⟨e, he, -⟩ | hexecute
    · rw [he] at hafter
      cases hafter
    · rw [hafter] at hexecute
      rw [runLexemes_of_ok hempty (scope_emptied table endLine ▸ hs) hexecute, scope_emptied]
      exact ih (hmeasures.execute hafter)

theorem not_zeroDivision_of_length_eq_zero (hlength : inputs.length = 0)
    (hmeasures : inputs.Measures table) (endLine : Nat) (lexemes : List Lexeme) :
    ¬FailsBy Failure.IsZeroDivision (runLexemes inputs endLine table lexemes) := by
  rintro ⟨failure, hfailure, hzero⟩
  fun_induction runLexemes inputs endLine table lexemes with
  | case1 => cases hfailure
  | case2 =>
    cases hfailure
    exact hzero
  | case3 table lexemes hempty statement s hs e he =>
    cases hfailure
    exact s.value.not_zeroDivision_of_length_eq_zero hlength hmeasures
      ⟨e, Statement.execute_eq_error_iff.1 he, hzero⟩
  | case4 table lexemes hempty statement s hs after hafter ih =>
    exact ih (hmeasures.execute hafter) hfailure

theorem run_emptied (h : ∃ n, ∀ entry ∈ table.entries, entry.2.length = n) (source : String) :
    FailsBy Failure.IsZeroDivision (run source table) ∨
      run source table.emptied = (run source table).map Table.emptied := by
  obtain ⟨inputs, hinputs⟩ := Inputs.exists_ofTable_eq_ok_iff.2 h
  obtain ⟨rfl, -⟩ := Inputs.ofTable_eq_ok_iff.1 hinputs
  unfold run
  simp only [hinputs, Inputs.ofTable_emptied, runSource]
  cases Token.lexemes source with
  | error e => exact .inr rfl
  | ok lexemes => exact runLexemes_emptied Inputs.measures_empty _ lexemes

theorem not_zeroDivision_emptied (source : String) (table : Table Series) :
    ¬FailsBy Failure.IsZeroDivision (run source table.emptied) := by
  unfold run
  simp only [Inputs.ofTable_emptied, runSource]
  cases Token.lexemes source with
  | error e =>
    rintro ⟨failure, hfailure, hzero⟩
    cases hfailure
    exact hzero
  | ok lexemes => exact not_zeroDivision_of_length_eq_zero rfl Inputs.measures_empty _ lexemes

theorem run_data_independent {table table' : Table Series}
    (h : ∃ n, ∀ entry ∈ table.entries, entry.2.length = n)
    (h' : ∃ n, ∀ entry ∈ table'.entries, entry.2.length = n)
    (hnames : ∀ name, name ∈ table.names ↔ name ∈ table'.names) (source : String) :
    (FailsBy Failure.IsZeroDivision (run source table) ∨
      FailsBy Failure.IsZeroDivision (run source table') ∨
      (∃ final final', run source table = .ok final ∧ run source table' = .ok final' ∧
        final.names = final'.names) ∨
      ∃ failure, run source table = .error failure ∧ run source table' = .error failure) ∧
    ¬FailsBy Failure.IsZeroDivision (run source table.emptied) ∧
    (FailsBy Failure.IsZeroDivision (run source table) ∨
      run source table.emptied = (run source table).map Table.emptied) := by
  refine ⟨?_, not_zeroDivision_emptied source table, run_emptied h source⟩
  rcases run_emptied h source with hzero | hrun
  · exact .inl hzero
  · rcases run_emptied h' source with hzero | hrun'
    · exact .inr (.inl hzero)
    · rw [← Table.emptied_eq hnames, hrun] at hrun'
      rcases map_eq_map_cases hrun' with ⟨final, final', hfinal, hfinal', hemptied⟩ | hfailure
      · have hfinals := congrArg Table.names hemptied
        rw [Table.names_emptied, Table.names_emptied] at hfinals
        exact .inr (.inr (.inl ⟨final, final', hfinal, hfinal', hfinals⟩))
      · exact .inr (.inr (.inr hfailure))

theorem run_data_independent_missing_input :
    run "LOW;" (.ofList [("CLOSE", [1.0, 2.0])]) = .error (.unevaluable (.unboundInput "LOW" 1)) ∧
      (FailsBy Failure.IsZeroDivision (run "LOW;" (.ofList [("CLOSE", [0.0])])) ∨
        run "LOW;" (.ofList [("CLOSE", [0.0])]) = .error (.unevaluable (.unboundInput "LOW" 1))) ∧
      run "LOW;" (Table.emptied (.ofList [("CLOSE", [1.0, 2.0])])) =
        .error (.unevaluable (.unboundInput "LOW" 1)) := by
  have hrun : run "LOW;" (.ofList [("CLOSE", [1.0, 2.0])]) =
      .error (.unevaluable (.unboundInput "LOW" 1)) := by
    with_unfolding_all rfl
  have hfails : ¬FailsBy Failure.IsZeroDivision (run "LOW;" (.ofList [("CLOSE", [1.0, 2.0])])) := by
    rw [hrun]
    rintro ⟨failure, hfailure, hzero⟩
    cases hfailure
    exact hzero
  have htwo : ∃ n, ∀ entry ∈ (Table.ofList [("CLOSE", [1.0, 2.0])]).entries,
      entry.2.length = n :=
    ⟨2, List.forall_mem_singleton.2 rfl⟩
  have hone : ∃ n, ∀ entry ∈ (Table.ofList [("CLOSE", [0.0])]).entries, entry.2.length = n :=
    ⟨1, List.forall_mem_singleton.2 rfl⟩
  have hnames : (Table.ofList [("CLOSE", [1.0, 2.0])]).names =
      (Table.ofList [("CLOSE", [0.0])]).names :=
    show ["CLOSE"] = ["CLOSE"] from rfl
  obtain ⟨halike, -, hemptied⟩ :=
    run_data_independent htwo hone (fun name => by rw [hnames]) "LOW;"
  refine ⟨hrun, ?_, (hemptied.resolve_left hfails).trans (congrArg _ hrun)⟩
  rcases halike.resolve_left hfails with hzero | ⟨final, final', hfinal, -⟩ | ⟨failure, h, h'⟩
  · exact .inl hzero
  · rw [hrun] at hfinal
    cases hfinal
  · rw [hrun] at h
    cases h
    exact .inr h'

end Program

end IndicatorFormula
