import IndicatorFormula.Proofs.Evaluation.Congruence
import IndicatorFormula.Proofs.Grammar.Scopes
import IndicatorFormula.Proofs.Program.Names
import IndicatorFormula.Proofs.Session.Steps

/-!
Statements that stand next to each other may be exchanged where neither assigns a name that the
other mentions (`run_swap`). A statement is read and executed alike from any two tables that agree
on the names it mentions, and what it records does not depend on what the other one does.
-/

namespace IndicatorFormula

variable {inputs : Inputs} {table table' after : Table Series} {s t : Statement} {name : String}
  {v w : List Lexeme}

namespace Statement

/-- The table with the series that the statement comes to. -/
def record (series : Series) (table : Table Series) : Statement → Table Series
  | assign name _ _ => table.insert name series
  | bare _ _ => table

theorem execute_eq_ok_iff : s.execute inputs table = .ok after ↔
    ∃ series, s.value.evaluate inputs table = .ok series ∧ s.record series table = after := by
  cases s with
  | assign name value line => exact execute_assign_eq_ok_iff
  | bare value line => exact execute_bare_eq_ok_iff.trans exists_and_right.symm

theorem get?_record (h : name ∉ s.assigned) (series : Series) :
    (s.record series table).get? name = table.get? name := by
  cases s with
  | assign target value line =>
    rw [record, Table.get?_insert, if_neg fun heq => h (List.mem_singleton.2 heq)]
  | bare value line => rfl

theorem record_comm (h : ∀ name ∈ s.assigned, name ∉ t.assigned) (x y : Series)
    (table : Table Series) : t.record y (s.record x table) = s.record x (t.record y table) := by
  cases s with
  | bare value line => rfl
  | assign name value line =>
    cases t with
    | bare value' line' => rfl
    | assign other value' line' =>
      have hne : name ≠ other := fun heq =>
        h name (List.mem_singleton_self name) (List.mem_singleton.2 heq)
      exact Table.insert_comm hne table x y

end Statement

/-! ## Two statements -/

/-- Neither statement assigns a name that the other mentions. -/
structure Independent (v w : List Lexeme) : Prop where
  forward : ∀ name, Assigns v name → ¬Mentions w name
  backward : ∀ name, Assigns w name → ¬Mentions v name

theorem Independent.symm (h : Independent v w) : Independent w v :=
  ⟨h.backward, h.forward⟩

theorem Assigns.mentions (h : Assigns v name) : Mentions v name := by
  obtain ⟨line, mark, markLine, after, rfl⟩ := h
  exact ⟨line, List.mem_cons_self ..⟩

/-- Independent statements are independent without what ends them. -/
theorem Independent.of_append {v' w' : List Lexeme} (h : Independent (v ++ v') (w ++ w')) :
    Independent v w := by
  have hassigns {u u' : List Lexeme} {name : String} (h : Assigns u name) :
      Assigns (u ++ u') name := by
    obtain ⟨line, mark, markLine, after, rfl⟩ := h
    exact ⟨line, mark, markLine, after ++ u', rfl⟩
  exact ⟨fun name hname hmentions => h.forward name (hassigns hname)
      (hmentions.mono (List.subset_append_left w w')),
    fun name hname hmentions => h.backward name (hassigns hname)
      (hmentions.mono (List.subset_append_left v v'))⟩

namespace Program

/-- The statement of these lexemes takes one table to another. -/
def Executes (inputs : Inputs) (w : List Lexeme) (table after : Table Series) : Prop :=
  ∃ endLine s, Grammar.IsStatement (scope table endLine) w s ∧ s.execute inputs table = .ok after

variable {endLine : Nat} {first second : Table Series}

theorem isStatement_of_get?_eq (hs : Grammar.IsStatement (scope table endLine) w s)
    (h : ∀ name, Mentions w name → table'.get? name = table.get? name) (endLine' : Nat) :
    Grammar.IsStatement (scope table' endLine') w s := by
  refine hs.inScope fun name hname hmem => ?_
  rw [scope, Table.mem_names_iff] at hmem ⊢
  rwa [h name hname]

theorem evaluate_of_get?_eq (hs : Grammar.IsStatement (scope table endLine) w s)
    (h : ∀ name, Mentions w name → table'.get? name = table.get? name) :
    s.value.evaluate inputs table' = s.value.evaluate inputs table := by
  refine Expr.evaluate_congr rfl (fun name line hvisits => rfl) fun name line hvisits => ?_
  have hmem := hs.everywhere (Grammar.granted_lexeme_mem _) (.symbol name line) hvisits.contains
  exact h name ⟨line, hmem⟩

theorem Executes.swap (h : Independent v w) (hfirst : Executes inputs v table first)
    (hsecond : Executes inputs w first second) :
    ∃ other, Executes inputs w table other ∧ Executes inputs v other second := by
  obtain ⟨endLine, s, hs, hexecute⟩ := hfirst
  obtain ⟨endLine', t, ht, hexecute'⟩ := hsecond
  obtain ⟨x, hx, rfl⟩ := Statement.execute_eq_ok_iff.1 hexecute
  obtain ⟨y, hy, rfl⟩ := Statement.execute_eq_ok_iff.1 hexecute'
  -- neither statement changes a series that the other reads
  have hback (name : String) (hname : Mentions w name) :
      table.get? name = (s.record x table).get? name :=
    (Statement.get?_record (fun hmem => h.forward name (hs.assigns hmem) hname) x).symm
  have hforth (name : String) (hname : Mentions v name) :
      (t.record y table).get? name = table.get? name :=
    Statement.get?_record (fun hmem => h.backward name (ht.assigns hmem) hname) y
  have hdistinct : ∀ name ∈ s.assigned, name ∉ t.assigned := fun name hname hmem =>
    h.forward name (hs.assigns hname) (ht.assigns hmem).mentions
  refine ⟨t.record y table,
    ⟨endLine', t, isStatement_of_get?_eq ht hback endLine', Statement.execute_eq_ok_iff.2 ?_⟩,
    ⟨endLine, s, isStatement_of_get?_eq hs hforth endLine, Statement.execute_eq_ok_iff.2 ?_⟩⟩
  · exact ⟨y, (evaluate_of_get?_eq ht hback).trans hy, rfl⟩
  · exact ⟨x, (evaluate_of_get?_eq hs hforth).trans hx,
      (Statement.record_comm hdistinct x y table).symm⟩

/-! ## Texts -/

variable {source later a b : String} {before : List Lexeme} {final : Table Series}

theorem runFrom_append_eq_ok_iff (hbefore : Token.lexemes source = .ok before)
    (hends : EndsStatement before) : runFrom inputs table (source ++ later) = .ok final ↔
      ∃ first, runFrom inputs table source = .ok first ∧
        runFrom inputs first later = .ok final := by
  constructor
  · intro h
    cases hsource : runFrom inputs table source with
    | ok first =>
      rw [runFrom_append hsource, mapError_eq_ok_iff] at h
      exact ⟨first, rfl, h⟩
    | error failure =>
      -- a later text that cannot be scanned fails the whole as well, only with its own report
      cases hafter : Token.lexemes later with
      | ok after =>
        rw [runFrom_append_of_error hbefore hends hafter hsource] at h
        cases h
      | error e =>
        simp only [runFrom, Token.lexemes_append hbefore hends, hafter] at h
        cases h
  · rintro ⟨first, hsource, hlater⟩
    rw [runFrom_append hsource, hlater]
    rfl

theorem runFrom_statement_eq_ok_iff {text : String} {line : Nat}
    (hlexemes : Token.lexemes text = .ok (w ++ [⟨.semicolon, line⟩])) (hw : ¬HasSemicolon w) :
    runFrom inputs table text = .ok after ↔ Executes inputs w table after := by
  rw [← enter_eq_runFrom ⟨w, line, hlexemes, hw⟩]
  constructor
  · intro h
    obtain ⟨s, hruns, hexecute⟩ := Session.runs_of_source h
    cases hruns with
    | source hlexemes' hs =>
      obtain rfl := Except.ok.inj (hlexemes.symm.trans hlexemes')
      exact ⟨_, s, Grammar.isStatement_of_parseWhole hw hs, hexecute⟩
  · rintro ⟨endLine, s, hs, hexecute⟩
    have hs' := isStatement_of_get?_eq hs (fun name _ => rfl)
      (Token.lastLine (w ++ [⟨.semicolon, line⟩]))
    have hwhole := Grammar.parseWhole_of_isStatement hs' line []
    have hruns : (Session.Step.source text).Runs ⟨inputs, table⟩ s :=
      .source hlexemes (congrArg Parsed.result hwhole)
    exact hruns.outcome_eq.trans (congrArg _ hexecute)

theorem runFrom_swap (ha : Token.IsStatementText a) (hb : Token.IsStatementText b)
    (hv : Token.lexemes a = .ok v) (hw : Token.lexemes b = .ok w) (hindependent : Independent v w)
    (h : runFrom inputs table (a ++ (b ++ later)) = .ok final) :
    runFrom inputs table (b ++ (a ++ later)) = .ok final := by
  obtain ⟨v, line, hv', hvs⟩ := ha
  obtain ⟨w, line', hw', hws⟩ := hb
  obtain rfl := Except.ok.inj (hv.symm.trans hv')
  obtain rfl := Except.ok.inj (hw.symm.trans hw')
  have hends := endsStatement_nil.semicolon v line
  have hends' := endsStatement_nil.semicolon w line'
  obtain ⟨first, hfirst, hrest⟩ := (runFrom_append_eq_ok_iff hv hends).1 h
  obtain ⟨second, hsecond, hlater⟩ := (runFrom_append_eq_ok_iff hw hends').1 hrest
  rw [runFrom_statement_eq_ok_iff hv hvs] at hfirst
  rw [runFrom_statement_eq_ok_iff hw hws] at hsecond
  obtain ⟨other, hother, hswapped⟩ := hfirst.swap hindependent.of_append hsecond
  rw [← runFrom_statement_eq_ok_iff hw hws] at hother
  rw [← runFrom_statement_eq_ok_iff hv hvs] at hswapped
  have hlater' := (runFrom_append_eq_ok_iff hv hends).2 ⟨second, hswapped, hlater⟩
  exact (runFrom_append_eq_ok_iff hw hends').2 ⟨other, hother, hlater'⟩

theorem run_of_swapped {pre : String} (hpre : Token.lexemes pre = .ok before)
    (hends : EndsStatement before) (ha : Token.IsStatementText a) (hb : Token.IsStatementText b)
    (hv : Token.lexemes a = .ok v) (hw : Token.lexemes b = .ok w) (hindependent : Independent v w)
    (h : run (pre ++ a ++ b ++ later) table = .ok final) :
    run (pre ++ b ++ a ++ later) table = .ok final := by
  obtain ⟨inputs, hinputs, hrun⟩ := run_eq_ok_iff.1 h
  rw [String.append_assoc, String.append_assoc, runFrom_append_eq_ok_iff hpre hends] at hrun
  obtain ⟨first, hfirst, hrest⟩ := hrun
  refine run_eq_ok_iff.2 ⟨inputs, hinputs, ?_⟩
  rw [String.append_assoc, String.append_assoc, runFrom_append_eq_ok_iff hpre hends]
  exact ⟨first, hfirst, runFrom_swap ha hb hv hw hindependent hrest⟩

/-- Of two statements of which neither assigns a name that the other mentions either may come
first, whatever stands before and behind them. -/
theorem run_swap {pre : String} (hpre : Token.lexemes pre = .ok before)
    (hends : EndsStatement before) (ha : Token.IsStatementText a) (hb : Token.IsStatementText b)
    (hv : Token.lexemes a = .ok v) (hw : Token.lexemes b = .ok w) (hindependent : Independent v w)
    (post : String) (table final : Table Series) :
    run (pre ++ a ++ b ++ post) table = .ok final ↔
      run (pre ++ b ++ a ++ post) table = .ok final :=
  ⟨run_of_swapped hpre hends ha hb hv hw hindependent,
    run_of_swapped hpre hends hb ha hw hv hindependent.symm⟩

/-- Both statements read `A`, and what follows reads both. -/
theorem run_swap_readers :
    run ("A:=CLOSE;" ++ "B:=A+1;" ++ "C:=A;" ++ "B+C;") (.ofList [("CLOSE", [3.0])]) =
        .ok (.ofList [("A", [3.0]), ("B", [4.0]), ("C", [3.0])]) ∧
      run ("A:=CLOSE;" ++ "C:=A;" ++ "B:=A+1;" ++ "B+C;") (.ofList [("CLOSE", [3.0])]) =
        .ok (.ofList [("A", [3.0]), ("B", [4.0]), ("C", [3.0])]) := by
  have hpre : Token.lexemes "A:=CLOSE;" = .ok [⟨.identifier "A", 1⟩, ⟨.assign ":=", 1⟩,
      ⟨.identifier "CLOSE", 1⟩, ⟨.semicolon, 1⟩] := by
    with_unfolding_all rfl
  have hends : EndsStatement [⟨.identifier "A", 1⟩, ⟨.assign ":=", 1⟩, ⟨.identifier "CLOSE", 1⟩,
      ⟨.semicolon, 1⟩] := by
    rintro last ⟨⟩
    rfl
  have hv : Token.lexemes "B:=A+1;" = .ok ([⟨.identifier "B", 1⟩, ⟨.assign ":=", 1⟩,
      ⟨.identifier "A", 1⟩, ⟨.operator .add, 1⟩, ⟨.number "1", 1⟩] ++ [⟨.semicolon, 1⟩]) := by
    with_unfolding_all rfl
  have hw : Token.lexemes "C:=A;" = .ok ([⟨.identifier "C", 1⟩, ⟨.assign ":=", 1⟩,
      ⟨.identifier "A", 1⟩] ++ [⟨.semicolon, 1⟩]) := by
    with_unfolding_all rfl
  have hindependent : Independent ([⟨.identifier "B", 1⟩, ⟨.assign ":=", 1⟩, ⟨.identifier "A", 1⟩,
      ⟨.operator .add, 1⟩, ⟨.number "1", 1⟩] ++ [⟨.semicolon, 1⟩])
      ([⟨.identifier "C", 1⟩, ⟨.assign ":=", 1⟩, ⟨.identifier "A", 1⟩] ++ [⟨.semicolon, 1⟩]) := by
    constructor <;> rintro name ⟨line, mark, markLine, after, ⟨⟩⟩ ⟨line', hmem⟩ <;> simp at hmem
  have hrun : run ("A:=CLOSE;" ++ "B:=A+1;" ++ "C:=A;" ++ "B+C;") (.ofList [("CLOSE", [3.0])]) =
      .ok (.ofList [("A", [3.0]), ("B", [4.0]), ("C", [3.0])]) := by
    with_unfolding_all rfl
  have hswap := run_swap hpre hends ⟨_, _, hv, by decide⟩ ⟨_, _, hw, by decide⟩ hv hw hindependent
    "B+C;" (.ofList [("CLOSE", [3.0])]) (.ofList [("A", [3.0]), ("B", [4.0]), ("C", [3.0])])
  exact ⟨hrun, hswap.1 hrun⟩

end Program

end IndicatorFormula
