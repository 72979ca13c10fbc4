import IndicatorFormula.Proofs.Layout.Execution
import IndicatorFormula.Proofs.Session.Steps
import IndicatorFormula.Proofs.Token.Division

/-!
A formula that runs may be followed by another: the second runs from the table that the first
leaves, as if it stood alone, and whatever it says of lines is lower by the lines of the first
(`run_append`). So it makes no difference whether statements are run together or one at a time.
-/

namespace IndicatorFormula

theorem Token.lastLine_append {v w : List Lexeme} (hw : w ≠ []) :
    lastLine (v ++ w) = lastLine w := by
  rw [lastLine, lastLine, List.getLast?_append, List.getLast?_eq_some_getLast hw, Option.some_or]

theorem Token.lastLine_relayout (r : Relayout) {lexemes : List Lexeme} (hne : lexemes ≠ []) :
    lastLine (lexemes.map (Lexeme.relayout r)) = r.line (lastLine lexemes) := by
  rw [lastLine, lastLine, List.getLast?_map, List.getLast?_eq_some_getLast hne]
  rfl

theorem Token.newlines_append (source later : String) :
    newlines (source ++ later) = newlines source + newlines later := by
  rw [newlines, String.toList_append, List.count_append]
  rfl

namespace Program

variable {inputs : Inputs} {table first : Table Series} {endLine endLine' : Nat}
  {names names' : List String} {lexemes before : List Lexeme} {source : String}

/-- Runs a text from the table that earlier statements left. -/
def runFrom (inputs : Inputs) (table : Table Series) (source : String) :
    Except Failure (Table Series) :=
  match Token.lexemes source with
  | .error e => .error (.unreadable e)
  | .ok lexemes => runLexemes inputs (Token.lastLine lexemes) table lexemes

/-- Reads a text against the names that earlier statements assigned. -/
def readFrom (names : List String) (source : String) : Except SyntaxError Reading :=
  (Token.lexemes source).map fun lexemes => readAll (Token.lastLine lexemes) names lexemes

/-- The reading of a text that begins with statements read before. -/
def Reading.behind (reading : Reading) (statements : List Statement) : Reading :=
  ⟨statements ++ reading.statements, reading.error⟩

/-! ## Lexemes -/

theorem endsStatement_of_runLexemes (h : runLexemes inputs endLine table lexemes = .ok first) :
    EndsStatement lexemes := by
  fun_induction runLexemes inputs endLine table lexemes with
  | case1 table lexemes hempty =>
    rw [List.isEmpty_iff.1 hempty]
    exact endsStatement_nil
  | case2 | case3 => cases h
  | case4 table lexemes hempty statement s hs after hafter ih =>
    exact Grammar.endsStatement_of_parseWhole hs (ih h)

theorem parseWhole_append (hempty : ¬lexemes.isEmpty = true) (hends : EndsStatement lexemes)
    (names : List String) (endLine endLine' : Nat) (later : List Lexeme) :
    Statement.parseWhole ⟨names, endLine'⟩ (lexemes ++ later) =
      ⟨(Statement.parseWhole ⟨names, endLine⟩ lexemes).result,
        (Statement.parseWhole ⟨names, endLine⟩ lexemes).rest ++ later⟩ := by
  have hnames : (⟨names, endLine'⟩ : Scope).names = (⟨names, endLine⟩ : Scope).names := rfl
  exact Grammar.parseWhole_append (hends.hasSemicolon (mt List.isEmpty_iff.2 hempty)) hnames later

theorem not_isEmpty_append (hempty : ¬lexemes.isEmpty = true) (later : List Lexeme) :
    ¬(lexemes ++ later).isEmpty = true := by
  rw [List.isEmpty_iff, List.append_eq_nil_iff]
  exact fun h => hempty (List.isEmpty_iff.2 h.1)

theorem runLexemes_append (hends : EndsStatement lexemes) (later : List Lexeme) :
    runLexemes inputs endLine' table (lexemes ++ later) =
      runLexemes inputs endLine table lexemes >>= fun first =>
        runLexemes inputs endLine' first later := by
  fun_induction runLexemes inputs endLine table lexemes with
  | case1 table lexemes hempty =>
    rw [List.isEmpty_iff.1 hempty]
    rfl
  | case2 table lexemes hempty statement e he =>
    have hwhole := parseWhole_append hempty hends table.names endLine endLine' later
    exact runLexemes_of_unreadable (not_isEmpty_append hempty later)
      ((congrArg Parsed.result hwhole).trans he)
  | case3 table lexemes hempty statement s hs e he =>
    have hwhole := parseWhole_append hempty hends table.names endLine endLine' later
    exact runLexemes_of_unevaluable (not_isEmpty_append hempty later)
      ((congrArg Parsed.result hwhole).trans hs) he
  | case4 table lexemes hempty statement s hs after hafter ih =>
    have hwhole := parseWhole_append hempty hends table.names endLine endLine' later
    have hstep := runLexemes_of_ok (not_isEmpty_append hempty later)
      ((congrArg Parsed.result hwhole).trans hs) hafter
    rw [hstep, scope, hwhole]
    exact ih (hends.suffix (Statement.rest_parseWhole_suffix ..))

/-- Reading sees no more of the names than which ones they are. -/
theorem readAll_congr (hnames : ∀ name, name ∈ names ↔ name ∈ names') :
    readAll endLine names lexemes = readAll endLine names' lexemes := by
  have hwhole {names names' : List String} (hnames : ∀ name, name ∈ names ↔ name ∈ names')
      (lexemes : List Lexeme) : Statement.parseWhole ⟨names, endLine⟩ lexemes =
        Statement.parseWhole ⟨names', endLine⟩ lexemes := by
    have hagrees : (⟨names, endLine⟩ : Scope).Agrees ⟨names', endLine⟩ := ⟨rfl, hnames⟩
    exact Grammar.parseWhole_of_agrees hagrees lexemes
  fun_induction readAll endLine names lexemes generalizing names' with
  | case1 names lexemes hempty => rw [List.isEmpty_iff.1 hempty, readAll_nil]
  | case2 names lexemes hempty statement e =>
    rename_i he
    exact (readAll_of_error hempty (hwhole hnames lexemes ▸ he)).symm
  | case3 names lexemes hempty statement s hs =>
    rename_i ih
    have hnext (name : String) : name ∈ s.assigned ++ names ↔ name ∈ s.assigned ++ names' := by
      rw [List.mem_append, List.mem_append, hnames]
    have hs' := (congrArg Parsed.result (hwhole hnames lexemes)).symm.trans hs
    rw [readAll_of_ok hempty hs', ← hwhole hnames lexemes, ← ih hnext]

/-- The statements of a formula that runs are read as before when more stands behind them. -/
theorem readAll_append (hnames : ∀ name, name ∈ table.names ↔ name ∈ names)
    (h : runLexemes inputs endLine table lexemes = .ok first) :
    ∃ statements, readAll endLine names lexemes = ⟨statements, none⟩ ∧
      ∀ endLine' later, readAll endLine' names (lexemes ++ later) =
        (readAll endLine' first.names later).behind statements := by
  fun_induction runLexemes inputs endLine table lexemes generalizing names with
  | case1 table lexemes hempty =>
    cases h
    rw [List.isEmpty_iff.1 hempty]
    refine ⟨[], readAll_nil, fun endLine' later => ?_⟩
    exact readAll_congr fun name => (hnames name).symm
  | case2 | case3 => cases h
  | case4 table lexemes hempty statement s hs after hafter =>
    rename_i ih
    -- a run that succeeds ends at a semicolon, so its statements take nothing of what is behind
    have hends := Grammar.endsStatement_of_parseWhole hs (endsStatement_of_runLexemes h)
    have hnext (name : String) : name ∈ after.names ↔ name ∈ s.assigned ++ names := by
      rw [Statement.mem_names_execute hafter, List.mem_append, hnames]
    obtain ⟨statements, hstatements, hlater⟩ := ih hnext h
    have hstatement : statement = Statement.parseWhole ⟨names, endLine⟩ lexemes :=
      parseWhole_scope hnames
    refine ⟨s :: statements, ?_, fun endLine' later => ?_⟩
    · rw [readAll_of_ok hempty (hstatement ▸ hs), ← hstatement, hstatements]
    · have hwhole := parseWhole_append hempty hends names endLine endLine' later
      rw [← hstatement] at hwhole
      rw [readAll_of_ok (not_isEmpty_append hempty later)
        ((congrArg Parsed.result hwhole).trans hs), hwhole, hlater]
      rfl

theorem names_of_runLexemes (h : runLexemes inputs endLine table lexemes = .ok first) :
    table.names ⊆ first.names := by
  fun_induction runLexemes inputs endLine table lexemes with
  | case1 table lexemes hempty =>
    cases h
    exact List.Subset.refl _
  | case2 | case3 => cases h
  | case4 table lexemes hempty statement s hs after hafter ih =>
    exact fun name hname => ih h ((Statement.mem_names_execute hafter name).2 (.inr hname))

/-! ## Texts -/

theorem lexemes_append_down {after : List Lexeme}
    (hbefore : Token.lexemes source = .ok before) (hends : EndsStatement before) {later : String}
    (hafter : Token.lexemes later = .ok after) :
    Token.lexemes (source ++ later) =
      .ok (before ++ after.map (Lexeme.relayout (.down (Token.newlines source)))) := by
  rw [Token.lexemes_append hbefore hends, hafter]
  rfl

theorem runFrom_of_lexemes (hbefore : Token.lexemes source = .ok before) :
    runFrom inputs table source = runLexemes inputs (Token.lastLine before) table before := by
  simp only [runFrom, hbefore]

theorem exists_lexemes_of_runFrom (h : runFrom inputs table source = .ok first) :
    ∃ before, Token.lexemes source = .ok before ∧
      runLexemes inputs (Token.lastLine before) table before = .ok first := by
  cases hbefore : Token.lexemes source with
  | error e =>
    rw [runFrom, hbefore] at h
    cases h
  | ok before => exact ⟨before, rfl, runFrom_of_lexemes hbefore ▸ h⟩

theorem lastLine_append_down {after : List Lexeme} (hafter : after ≠ []) (lines : Nat) :
    Token.lastLine (before ++ after.map (Lexeme.relayout (.down lines))) =
      (Relayout.down lines).line (Token.lastLine after) := by
  rw [Token.lastLine_append (mt List.map_eq_nil_iff.1 hafter), Token.lastLine_relayout _ hafter]

theorem runFrom_append (h : runFrom inputs table source = .ok first) (later : String) :
    runFrom inputs table (source ++ later) = (runFrom inputs first later).mapError
      (Failure.relayout (.down (Token.newlines source))) := by
  obtain ⟨before, hbefore, hrun⟩ := exists_lexemes_of_runFrom h
  have hends := endsStatement_of_runLexemes hrun
  cases hafter : Token.lexemes later with
  | error e =>
    simp only [runFrom, Token.lexemes_append hbefore hends, hafter]
    rfl
  | ok after =>
    have hlater (endLine' : Nat) (later : List Lexeme) :
        runLexemes inputs endLine' table (before ++ later) =
          runLexemes inputs endLine' first later :=
      (runLexemes_append hends later).trans (congrArg (· >>= _) hrun)
    rw [runFrom_of_lexemes hafter, runFrom_of_lexemes (lexemes_append_down hbefore hends hafter),
      hlater]
    -- a text without tokens has no last line of its own
    by_cases hnil : after = []
    · subst hnil
      exact runLexemes_nil.trans (congrArg (Except.mapError _) runLexemes_nil.symm)
    · rw [lastLine_append_down hnil]
      exact runLexemes_relayout _

theorem readFrom_append (hnames : ∀ name, name ∈ table.names ↔ name ∈ names)
    (h : runFrom inputs table source = .ok first) :
    ∃ statements, readFrom names source = .ok ⟨statements, none⟩ ∧
      ∀ later, readFrom names (source ++ later) =
        ((readFrom first.names later).map fun reading =>
          (reading.relayout (.down (Token.newlines source))).behind statements).mapError
            (SyntaxError.relayout (.down (Token.newlines source))) := by
  obtain ⟨before, hbefore, hrun⟩ := exists_lexemes_of_runFrom h
  have hends := endsStatement_of_runLexemes hrun
  obtain ⟨statements, hstatements, happend⟩ := readAll_append hnames hrun
  refine ⟨statements, ?_, fun later => ?_⟩
  · rw [readFrom, hbefore, ← hstatements]
    rfl
  · cases hafter : Token.lexemes later with
    | error e =>
      simp only [readFrom, Token.lexemes_append hbefore hends, hafter]
      rfl
    | ok after =>
      rw [readFrom, readFrom, lexemes_append_down hbefore hends hafter, hafter]
      refine congrArg Except.ok ((happend _ _).trans ?_)
      by_cases hnil : after = []
      · subst hnil
        simp only [List.map_nil, readAll_nil]
        rfl
      · rw [lastLine_append_down hnil, readAll_relayout]

/-! ## One statement at a time -/

theorem enter_eq_runFrom {text : String} (h : Token.IsStatementText text) :
    Session.enter ⟨inputs, table⟩ text = runFrom inputs table text := by
  obtain ⟨w, line, hlexemes, hw⟩ := h
  have hempty : ¬(w ++ [(⟨.semicolon, line⟩ : Lexeme)]).isEmpty = true := by
    rw [List.isEmpty_iff]
    exact List.append_ne_nil_of_right_ne_nil _ (List.cons_ne_nil _ _)
  rw [Session.enter, runFrom_of_lexemes hlexemes]
  cases hs : (Statement.parseWhole (scope table (Token.lastLine (w ++ [⟨.semicolon, line⟩])))
      (w ++ [⟨.semicolon, line⟩])).result with
  | error e =>
    have houtcome : (Session.Step.source text).outcome ⟨inputs, table⟩ =
        .error (.unreadable e) :=
      Session.outcome_of_unreadable hlexemes hs
    rw [runLexemes_of_unreadable hempty hs, houtcome]
  | ok s =>
    have hruns : (Session.Step.source text).Runs ⟨inputs, table⟩ s := .source hlexemes hs
    rw [hruns.outcome_eq]
    cases hafter : s.execute inputs table with
    | error e =>
      rw [runLexemes_of_unevaluable hempty hs hafter]
      rfl
    | ok after =>
      -- the semicolon of the text is its last token, so the run is over
      rw [runLexemes_of_ok hempty hs hafter, Grammar.rest_eq_nil_of_parseWhole hw hs,
        runLexemes_nil]
      rfl

theorem runFrom_append_of_error {later : String} {after : List Lexeme} {e : Failure}
    (hbefore : Token.lexemes source = .ok before) (hends : EndsStatement before)
    (hafter : Token.lexemes later = .ok after) (h : runFrom inputs table source = .error e) :
    runFrom inputs table (source ++ later) = .error e := by
  rw [runFrom_of_lexemes hbefore] at h
  rw [runFrom_of_lexemes (lexemes_append_down hbefore hends hafter)]
  exact (runLexemes_append hends _).trans (congrArg (· >>= _) h)

theorem exists_lexemes_join {texts : List String} (h : ∀ text ∈ texts, Token.IsStatementText text) :
    ∃ lexemes, Token.lexemes (String.join texts) = .ok lexemes ∧ EndsStatement lexemes := by
  induction texts with
  | nil =>
    refine ⟨[], ?_, endsStatement_nil⟩
    rw [String.join_nil, Token.lexemes, String.toList_empty, Token.scan]
  | cons text texts ih =>
    obtain ⟨htext, htexts⟩ := List.forall_mem_cons.1 h
    obtain ⟨w, hlexemes, hends⟩ := htext.exists_lexemes
    obtain ⟨after, hafter, hlast⟩ := ih htexts
    rw [String.join_cons]
    exact ⟨_, lexemes_append_down hlexemes hends hafter, hends.append (endsStatement_down.2 hlast)⟩

end Program

/-- Enters texts in turn, the first below as many lines of text, each other below those before. -/
def Session.enterAll (session : Session) (lines : Nat) : List String → Except Failure (Table Series)
  | [] => .ok session.table
  | text :: texts => do
    let table ← (session.enter text).mapError (Failure.relayout (.down lines))
    enterAll { session with table := table } (lines + Token.newlines text) texts

theorem Session.steps_of_enterAll {session : Session} {lines : Nat} {texts : List String}
    {final : Table Series} (h : session.enterAll lines texts = .ok final) :
    session.steps (texts.map .source) = { session with table := final } := by
  induction texts generalizing session lines with
  | nil =>
    cases h
    rfl
  | cons text texts ih =>
    rw [enterAll] at h
    cases htable : session.enter text with
    | error e =>
      rw [htable] at h
      cases h
    | ok table =>
      rw [htable] at h
      rw [List.map_cons, steps, List.foldl_cons, step_of_ok htable]
      exact ih h

namespace Program

variable {inputs : Inputs} {table first : Table Series} {before : List Lexeme} {source : String}

theorem run_eq_runFrom (hinputs : Inputs.ofTable table = .ok inputs) (source : String) :
    run source table = runFrom inputs .empty source := by
  simp only [run, hinputs]
  rfl

theorem run_eq_ok_iff : run source table = .ok first ↔
    ∃ inputs, Inputs.ofTable table = .ok inputs ∧ runFrom inputs .empty source = .ok first := by
  cases hinputs : Inputs.ofTable table with
  | error cause =>
    rw [run, hinputs]
    simp only [reduceCtorEq, false_and, exists_false]
  | ok inputs =>
    rw [run_eq_runFrom hinputs]
    simp only [Except.ok.injEq, exists_eq_left']

theorem runFrom_join {texts : List String} (h : runFrom inputs table source = .ok first)
    (htexts : ∀ text ∈ texts, Token.IsStatementText text) :
    runFrom inputs table (source ++ String.join texts) =
      Session.enterAll ⟨inputs, first⟩ (Token.newlines source) texts := by
  induction texts generalizing source first with
  | nil =>
    rw [String.join_nil, String.append_empty]
    exact h
  | cons text texts ih =>
    obtain ⟨htext, hlater⟩ := List.forall_mem_cons.1 htexts
    rw [String.join_cons, Session.enterAll, enter_eq_runFrom htext]
    cases hnext : runFrom inputs first text with
    | error e =>
      obtain ⟨w, hlexemes, hends⟩ := htext.exists_lexemes
      obtain ⟨after, hafter, -⟩ := exists_lexemes_join hlater
      rw [runFrom_append h, runFrom_append_of_error hlexemes hends hafter hnext]
      rfl
    | ok next =>
      have hsource : runFrom inputs table (source ++ text) = .ok next := by
        rw [runFrom_append h, hnext]
        rfl
      rw [← String.append_assoc, ih hsource hlater, Token.newlines_append]
      rfl

theorem runFrom_empty (inputs : Inputs) (table : Table Series) :
    runFrom inputs table "" = .ok table := by
  have hlexemes : Token.lexemes "" = .ok [] := by
    rw [Token.lexemes, String.toList_empty, Token.scan]
  rw [runFrom_of_lexemes hlexemes, runLexemes_nil]

theorem runFrom_append_blank {blank : String} (hblank : Token.lexemes blank = .ok [])
    (hbefore : Token.lexemes source = .ok before) (hends : EndsStatement before) :
    runFrom inputs table (source ++ blank) = runFrom inputs table source := by
  cases h : runFrom inputs table source with
  | error e => exact runFrom_append_of_error hbefore hends hblank h
  | ok first =>
    rw [runFrom_append h, runFrom_of_lexemes hblank, runLexemes_nil]
    rfl

/-- Every text that runs is divided into its statements, and entered one at a time they come to
the same table. -/
theorem exists_enterAll (h : runFrom inputs .empty source = .ok first) :
    ∃ texts blank, source = String.join texts ++ blank ∧
      (∀ text ∈ texts, Token.IsStatementText text) ∧ Token.lexemes blank = .ok [] ∧
        Session.enterAll ⟨inputs, .empty⟩ 0 texts = .ok first := by
  obtain ⟨before, hbefore, hrun⟩ := exists_lexemes_of_runFrom h
  obtain ⟨texts, blank, rfl, htexts, hblank⟩ :=
    Token.exists_statementTexts hbefore (endsStatement_of_runLexemes hrun)
  refine ⟨texts, blank, rfl, htexts, hblank, ?_⟩
  obtain ⟨w, hw, hends⟩ := exists_lexemes_join htexts
  have hjoin := runFrom_join (runFrom_empty inputs .empty) htexts
  rw [String.empty_append] at hjoin
  rw [runFrom_append_blank hblank hw hends] at h
  exact hjoin.symm.trans h

/-- A formula behind one that runs: its tokens, its trees and what comes of it are those it has on
its own from the table of the first, only lower. Statements may be run together or one at a
time. -/
theorem run_append (h : run source table = .ok first) :
    ∃ inputs before statements, Inputs.ofTable table = .ok inputs ∧
      Token.lexemes source = .ok before ∧ readFrom [] source = .ok ⟨statements, none⟩ ∧
        (∀ later, Token.lexemes (source ++ later) =
          ((Token.lexemes later).map fun after =>
            before ++ after.map (Lexeme.relayout (.down (Token.newlines source)))).mapError
              (SyntaxError.relayout (.down (Token.newlines source)))) ∧
        (∀ later, readFrom [] (source ++ later) =
          ((readFrom first.names later).map fun reading =>
            (reading.relayout (.down (Token.newlines source))).behind statements).mapError
              (SyntaxError.relayout (.down (Token.newlines source)))) ∧
        (∀ later, run (source ++ later) table = (runFrom inputs first later).mapError
          (Failure.relayout (.down (Token.newlines source)))) ∧
        (∀ later final, run (source ++ later) table = .ok final → first.names ⊆ final.names) ∧
        (∀ texts, (∀ text ∈ texts, Token.IsStatementText text) →
          run (source ++ String.join texts) table =
            Session.enterAll ⟨inputs, first⟩ (Token.newlines source) texts ∧
          ∀ final, run (source ++ String.join texts) table = .ok final →
            Session.steps ⟨inputs, first⟩ (texts.map .source) = ⟨inputs, final⟩) ∧
        ∃ texts blank, source = String.join texts ++ blank ∧
          (∀ text ∈ texts, Token.IsStatementText text) ∧ Token.lexemes blank = .ok [] ∧
            Session.enterAll ⟨inputs, .empty⟩ 0 texts = .ok first := by
  obtain ⟨inputs, hinputs, h⟩ := run_eq_ok_iff.1 h
  obtain ⟨before, hbefore, hrun⟩ := exists_lexemes_of_runFrom h
  obtain ⟨statements, hstatements, hreading⟩ := readFrom_append (fun _ => Iff.rfl) h
  refine ⟨inputs, before, statements, hinputs, hbefore, hstatements, fun later => ?_, hreading,
    fun later => ?_, fun later final hfinal => ?_,
    fun texts htexts => ⟨?_, fun final hfinal => ?_⟩, exists_enterAll h⟩
  · rw [Token.lexemes_append hbefore (endsStatement_of_runLexemes hrun)]
    cases Token.lexemes later <;> rfl
  · rw [run_eq_runFrom hinputs, runFrom_append h]
  · rw [run_eq_runFrom hinputs, runFrom_append h, mapError_eq_ok_iff] at hfinal
    obtain ⟨after, -, hafter⟩ := exists_lexemes_of_runFrom hfinal
    exact names_of_runLexemes hafter
  · rw [run_eq_runFrom hinputs, runFrom_join h htexts]
  · rw [run_eq_runFrom hinputs, runFrom_join h htexts] at hfinal
    exact Session.steps_of_enterAll hfinal

theorem run_append_next_line :
    run "A:=CLOSE;\n" (.ofList [("CLOSE", [1.0])]) = .ok (.ofList [("A", [1.0])]) ∧
      ∃ inputs, Inputs.ofTable (.ofList [("CLOSE", [1.0])]) = .ok inputs ∧
        run ("A:=CLOSE;\n" ++ "B:=A/0;") (.ofList [("CLOSE", [1.0])]) =
          (runFrom inputs (.ofList [("A", [1.0])]) "B:=A/0;").mapError
            (Failure.relayout (.down 1)) := by
  have h : run "A:=CLOSE;\n" (.ofList [("CLOSE", [1.0])]) = .ok (.ofList [("A", [1.0])]) := by
    with_unfolding_all rfl
  obtain ⟨inputs, before, statements, hinputs, -, -, -, -, hrun, -⟩ := run_append h
  exact ⟨h, inputs, hinputs, hrun "B:=A/0;"⟩

end Program

end IndicatorFormula
