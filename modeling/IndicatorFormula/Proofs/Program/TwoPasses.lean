import IndicatorFormula.Program
import IndicatorFormula.Proofs.Evaluation.Inversion
import IndicatorFormula.Proofs.Grammar.Resolution
import IndicatorFormula.Proofs.Inputs.Alignment
import IndicatorFormula.Table.Lemmas

/-!
A formula in two passes. The first reads the statements, each against the set of names that those
before it assign; it sees no series. The second executes what was read. A run, which reads and
executes by turns, comes to the same (`run_eq_inTwoPasses`): the names in the table are those that
the statements so far assign, whatever the series are.
-/

namespace IndicatorFormula

def Statement.assigned : Statement → List String
  | assign name _ _ => [name]
  | bare .. => []

theorem Statement.mem_names_execute {inputs : Inputs} {table after : Table Series} {s : Statement}
    (h : s.execute inputs table = .ok after) (name : String) :
    name ∈ after.names ↔ name ∈ s.assigned ∨ name ∈ table.names := by
  cases s with
  | assign target value line =>
    obtain ⟨series, -, rfl⟩ := execute_assign_eq_ok_iff.1 h
    rw [Table.mem_names_iff, Table.mem_names_iff, Table.get?_insert, Statement.assigned,
      List.mem_singleton]
    split
    · next heq => simp only [heq, Option.isSome_some, true_or]
    · next hne => simp only [hne, false_or]
  | bare value line =>
    obtain ⟨-, rfl⟩ := execute_bare_eq_ok_iff.1 h
    simp only [Statement.assigned, List.not_mem_nil, false_or]

namespace Program

/-- The statements a text completes, and the error that ends it if there is one. -/
structure Reading where
  statements : List Statement
  error : Option SyntaxError

/-- Reads statements against the names given and those they assign. -/
def readAll (endLine : Nat) (names : List String) (lexemes : List Lexeme) : Reading :=
  if lexemes.isEmpty then ⟨[], none⟩
  else
    let statement := Statement.parseWhole ⟨names, endLine⟩ lexemes
    match _h : statement.result with
    | .error e => ⟨[], some e⟩
    | .ok s =>
      let later := readAll endLine (s.assigned ++ names) statement.rest
      ⟨s :: later.statements, later.error⟩
termination_by lexemes.length
decreasing_by exact Statement.length_rest_lt_of_parseWhole_ok ‹_›

def executeAll (inputs : Inputs) (table : Table Series) (statements : List Statement) :
    Except EvaluationError (Table Series) :=
  statements.foldlM (fun table s => s.execute inputs table) table

/-- An error of a statement that was read comes before the error that ended the reading. -/
def Reading.outcome (inputs : Inputs) (table : Table Series) (reading : Reading) :
    Except Failure (Table Series) :=
  match executeAll inputs table reading.statements with
  | .error e => .error (.unevaluable e)
  | .ok table =>
    match reading.error with
    | some e => .error (.unreadable e)
    | none => .ok table

def inTwoPasses (source : String) (table : Table Series) : Except Failure (Table Series) :=
  match Inputs.ofTable table with
  | .error e => .error (.uneven e)
  | .ok inputs =>
    match Token.lexemes source with
    | .error e => .error (.unreadable e)
    | .ok lexemes => (readAll (Token.lastLine lexemes) [] lexemes).outcome inputs .empty

variable {inputs : Inputs} {table : Table Series} {endLine : Nat} {names : List String}
  {lexemes : List Lexeme} {s : Statement}

theorem readAll_nil : readAll endLine names [] = ⟨[], none⟩ := by
  rw [readAll, if_pos List.isEmpty_nil]

theorem readAll_of_error {e : SyntaxError} (hempty : ¬lexemes.isEmpty = true)
    (h : (Statement.parseWhole ⟨names, endLine⟩ lexemes).result = .error e) :
    readAll endLine names lexemes = ⟨[], some e⟩ := by
  rw [readAll, if_neg hempty]
  dsimp only
  split
  · next e' he' =>
    rw [he'] at h
    cases h
    rfl
  · next s hs =>
    rw [hs] at h
    cases h

theorem readAll_of_ok (hempty : ¬lexemes.isEmpty = true)
    (h : (Statement.parseWhole ⟨names, endLine⟩ lexemes).result = .ok s) :
    readAll endLine names lexemes =
      let later := readAll endLine (s.assigned ++ names)
        (Statement.parseWhole ⟨names, endLine⟩ lexemes).rest
      ⟨s :: later.statements, later.error⟩ := by
  rw [readAll, if_neg hempty]
  dsimp only
  split
  · next e he =>
    rw [he] at h
    cases h
  · next s' hs' =>
    rw [hs'] at h
    cases h
    rfl

theorem outcome_cons_of_error {ss : List Statement} {error : Option SyntaxError}
    {e : EvaluationError} (h : s.execute inputs table = .error e) :
    Reading.outcome inputs table ⟨s :: ss, error⟩ = .error (.unevaluable e) := by
  rw [Reading.outcome, executeAll, List.foldlM_cons, h]
  rfl

theorem outcome_cons_of_ok {ss : List Statement} {error : Option SyntaxError}
    {after : Table Series} (h : s.execute inputs table = .ok after) :
    Reading.outcome inputs table ⟨s :: ss, error⟩ = Reading.outcome inputs after ⟨ss, error⟩ := by
  rw [Reading.outcome, executeAll, List.foldlM_cons, h]
  rfl

theorem parseWhole_scope (hnames : ∀ name, name ∈ table.names ↔ name ∈ names) :
    Statement.parseWhole (scope table endLine) lexemes =
      Statement.parseWhole ⟨names, endLine⟩ lexemes := by
  have hagrees : (scope table endLine).Agrees ⟨names, endLine⟩ := ⟨rfl, hnames⟩
  exact Grammar.parseWhole_of_agrees hagrees lexemes

/-- Reading and executing by turns, the names in the table stay those of the first pass. -/
theorem runLexemes_eq_outcome (hnames : ∀ name, name ∈ table.names ↔ name ∈ names) :
    runLexemes inputs endLine table lexemes =
      (readAll endLine names lexemes).outcome inputs table := by
  fun_induction runLexemes inputs endLine table lexemes generalizing names with
  | case1 table lexemes hempty =>
    rw [readAll, if_pos hempty]
    rfl
  | case2 table lexemes hempty statement e =>
    rename_i he
    have hstatement : statement = Statement.parseWhole ⟨names, endLine⟩ lexemes :=
      parseWhole_scope hnames
    rw [readAll_of_error hempty (hstatement ▸ he)]
    rfl
  | case3 table lexemes hempty statement s hs e =>
    rename_i he
    have hstatement : statement = Statement.parseWhole ⟨names, endLine⟩ lexemes :=
      parseWhole_scope hnames
    rw [readAll_of_ok hempty (hstatement ▸ hs)]
    exact (outcome_cons_of_error he).symm
  | case4 table lexemes hempty statement s hs after hafter =>
    rename_i ih
    have hstatement : statement = Statement.parseWhole ⟨names, endLine⟩ lexemes :=
      parseWhole_scope hnames
    -- executing a statement adds the one name that reading it adds
    have hnext : ∀ name, name ∈ after.names ↔ name ∈ s.assigned ++ names := by
      intro name
      rw [Statement.mem_names_execute hafter, List.mem_append, hnames]
    rw [readAll_of_ok hempty (hstatement ▸ hs), outcome_cons_of_ok hafter, ← hstatement]
    exact ih hnext

theorem outcome_ne_uneven {reading : Reading} {cause : UnevenInputs} :
    reading.outcome inputs table ≠ .error (.uneven cause) := by
  intro h
  unfold Reading.outcome at h
  split at h
  · cases h
  · split at h
    · cases h
    · cases h

theorem run_eq_inTwoPasses (source : String) (table : Table Series) :
    run source table = inTwoPasses source table ∧
      ((∃ cause, run source table = .error (.uneven cause)) ↔
        ¬∃ n, ∀ entry ∈ table.entries, entry.2.length = n) := by
  have hpasses : run source table = inTwoPasses source table := by
    unfold run inTwoPasses runSource
    cases Inputs.ofTable table with
    | error cause => rfl
    | ok inputs =>
      cases Token.lexemes source with
      | error e => rfl
      | ok lexemes => exact runLexemes_eq_outcome fun _ => Iff.rfl
  refine ⟨hpasses, ?_⟩
  rw [hpasses, ← Inputs.exists_ofTable_eq_ok_iff]
  unfold inTwoPasses
  cases Inputs.ofTable table with
  | error cause =>
    refine iff_of_true ⟨cause, rfl⟩ ?_
    rintro ⟨inputs, h⟩
    cases h
  | ok inputs =>
    refine iff_of_false ?_ fun h => h ⟨inputs, rfl⟩
    rintro ⟨cause, h⟩
    cases hlexemes : Token.lexemes source with
    | error e =>
      rw [hlexemes] at h
      cases h
    | ok lexemes =>
      rw [hlexemes] at h
      exact outcome_ne_uneven h

end Program

end IndicatorFormula
