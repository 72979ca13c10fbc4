import IndicatorFormula.Proofs.Grammar.Lines
import IndicatorFormula.Proofs.Grammar.Semicolons
import IndicatorFormula.Proofs.Inputs.Alignment
import IndicatorFormula.Proofs.Program.Steps
import IndicatorFormula.Proofs.Token.LongestMatch

/-!
The line a failure reports. A run that fails comes to a statement that cannot be read or executed
(`runLexemes_eq_error_iff`), and the line is that of one of the lexemes of this statement, never
of one before it or behind what was taken of it (`run_error_line`).
-/

namespace IndicatorFormula

def Failure.line? : Failure → Option Nat
  | uneven _ => none
  | unreadable e => some e.line
  | unevaluable e => some e.line

namespace Token

theorem lastLine_eq {lexemes : List Lexeme} {last : Lexeme} (h : last ∈ lexemes.getLast?) :
    lastLine lexemes = last.line := by
  rw [lastLine, Option.mem_def.1 h]

end Token

namespace Program

/-- A run that has executed `count` statements has `here` left to read. -/
inductive ComesTo (inputs : Inputs) (endLine : Nat) :
    Table Series → List Lexeme → Nat → Table Series → List Lexeme → Prop
  | start {table : Table Series} {lexemes : List Lexeme} :
    ComesTo inputs endLine table lexemes 0 table lexemes
  | turn {table after reached : Table Series} {lexemes rest here : List Lexeme} {s : Statement}
    {count : Nat} (hs : Statement.parseWhole (scope table endLine) lexemes = ⟨.ok s, rest⟩)
    (hafter : s.execute inputs table = .ok after)
    (h : ComesTo inputs endLine after rest count reached here) :
    ComesTo inputs endLine table lexemes (count + 1) reached here

/-- The statement in front fails. What is held against it are the lexemes that were taken, or the
first where none was; they end with its semicolon where it was read and is not executed. -/
inductive Fails (inputs : Inputs) (endLine : Nat) (table : Table Series) :
    List Lexeme → List Lexeme → Failure → Prop
  | taken {first : Lexeme} {w rest : List Lexeme} {e : SyntaxError}
    (h : Statement.parseWhole (scope table endLine) (first :: w ++ rest) = ⟨.error e, rest⟩) :
    Fails inputs endLine table (first :: w ++ rest) (first :: w) (.unreadable e)
  | untaken {first : Lexeme} {rest : List Lexeme} {e : SyntaxError}
    (h : Statement.parseWhole (scope table endLine) (first :: rest) =
      ⟨.error e, first :: rest⟩) :
    Fails inputs endLine table (first :: rest) [first] (.unreadable e)
  | executed {w rest : List Lexeme} {line : Nat} {s : Statement} {e : EvaluationError}
    (hs : Statement.parseWhole (scope table endLine) (w ++ ⟨.semicolon, line⟩ :: rest) =
      ⟨.ok s, rest⟩)
    (he : s.execute inputs table = .error e) :
    Fails inputs endLine table (w ++ ⟨.semicolon, line⟩ :: rest) (w ++ [⟨.semicolon, line⟩])
      (.unevaluable e)

variable {inputs : Inputs} {endLine count : Nat} {table reached : Table Series}
  {lexemes here span : List Lexeme} {failure : Failure}

theorem ComesTo.suffix (h : ComesTo inputs endLine table lexemes count reached here) :
    here <:+ lexemes := by
  induction h with
  | start => exact List.suffix_rfl
  | @turn table after reached lexemes rest here s count hs hafter h ih =>
    have hrest := Statement.rest_parseWhole_suffix (scope table endLine) lexemes
    rw [hs] at hrest
    exact ih.trans hrest

theorem Fails.sublist (h : Fails inputs endLine table here span failure) :
    span.Sublist here := by
  cases h with
  | taken h => exact List.sublist_append_left _ _
  | untaken h => exact (List.nil_sublist _).cons_cons _
  | executed hs he => exact ((List.nil_sublist _).cons_cons _).append_left _

theorem exists_fails_of_parseWhole {lexemes rest : List Lexeme} {e : SyntaxError}
    (hne : lexemes ≠ [])
    (h : Statement.parseWhole (scope table endLine) lexemes = ⟨.error e, rest⟩) :
    ∃ span, Fails inputs endLine table lexemes span (.unreadable e) := by
  have hrest := Statement.rest_parseWhole_suffix (scope table endLine) lexemes
  rw [h] at hrest
  obtain ⟨_ | ⟨first, w⟩, rfl⟩ := hrest
  · obtain ⟨first, later, rfl⟩ := List.exists_cons_of_ne_nil hne
    exact ⟨_, .untaken h⟩
  · exact ⟨_, .taken h⟩

theorem exists_fails_of_execute {lexemes rest : List Lexeme} {s : Statement} {e : EvaluationError}
    (hs : Statement.parseWhole (scope table endLine) lexemes = ⟨.ok s, rest⟩)
    (he : s.execute inputs table = .error e) :
    ∃ span, Fails inputs endLine table lexemes span (.unevaluable e) := by
  obtain ⟨w, line, rfl, -⟩ := Grammar.parseWhole_eq_ok_iff.1 hs
  exact ⟨_, .executed hs he⟩

theorem ComesTo.runLexemes_eq (h : ComesTo inputs endLine table lexemes count reached here) :
    runLexemes inputs endLine table lexemes = runLexemes inputs endLine reached here := by
  induction h with
  | start => rfl
  | @turn table after reached lexemes rest here s count hs hafter h ih =>
    have hresult : (Statement.parseWhole (scope table endLine) lexemes).result = .ok s := by rw [hs]
    have hempty : ¬lexemes.isEmpty = true := by
      have hlength := Statement.length_rest_lt_of_parseWhole_ok hresult
      rw [List.isEmpty_iff]
      exact List.ne_nil_of_length_pos (Nat.zero_lt_of_lt hlength)
    rw [runLexemes_of_ok hempty hresult hafter, hs, ih]

theorem Fails.runLexemes_eq (h : Fails inputs endLine table here span failure) :
    runLexemes inputs endLine table here = .error failure := by
  cases h with
  | taken h =>
    exact runLexemes_of_unreadable Bool.false_ne_true (congrArg Parsed.result h)
  | untaken h =>
    exact runLexemes_of_unreadable Bool.false_ne_true (congrArg Parsed.result h)
  | executed hs he =>
    refine runLexemes_of_unevaluable ?_ (congrArg Parsed.result hs) he
    rw [List.isEmpty_iff]
    exact List.append_ne_nil_of_right_ne_nil _ (List.cons_ne_nil _ _)

theorem exists_fails_of_runLexemes (h : runLexemes inputs endLine table lexemes = .error failure) :
    ∃ count reached here span, ComesTo inputs endLine table lexemes count reached here ∧
      Fails inputs endLine reached here span failure := by
  fun_induction runLexemes inputs endLine table lexemes with
  | case1 => cases h
  | case2 table lexemes hempty statement e he =>
    cases h
    have hstatement : statement = ⟨.error e, statement.rest⟩ := by rw [← he]
    obtain ⟨span, hfails⟩ := exists_fails_of_parseWhole (mt List.isEmpty_iff.2 hempty) hstatement
    exact ⟨0, table, lexemes, span, .start, hfails⟩
  | case3 table lexemes hempty statement s hs e he =>
    cases h
    have hstatement : statement = ⟨.ok s, statement.rest⟩ := by rw [← hs]
    obtain ⟨span, hfails⟩ := exists_fails_of_execute hstatement he
    exact ⟨0, table, lexemes, span, .start, hfails⟩
  | case4 table lexemes hempty statement s hs after hafter ih =>
    have hstatement : statement = ⟨.ok s, statement.rest⟩ := by rw [← hs]
    obtain ⟨count, reached, here, span, hcomes, hfails⟩ := ih h
    exact ⟨count + 1, reached, here, span, .turn hstatement hafter hcomes, hfails⟩

/-- A run fails exactly with the failure of a statement it comes to. -/
theorem runLexemes_eq_error_iff : runLexemes inputs endLine table lexemes = .error failure ↔
    ∃ count reached here span, ComesTo inputs endLine table lexemes count reached here ∧
      Fails inputs endLine reached here span failure := by
  refine ⟨exists_fails_of_runLexemes, ?_⟩
  rintro ⟨count, reached, here, span, hcomes, hfails⟩
  exact hcomes.runLexemes_eq.trans hfails.runLexemes_eq

theorem exists_comesTo_of_runLexemes {final : Table Series}
    (h : runLexemes inputs endLine table lexemes = .ok final) :
    ∃ count, ComesTo inputs endLine table lexemes count final [] := by
  fun_induction runLexemes inputs endLine table lexemes with
  | case1 table lexemes hempty =>
    cases h
    rw [List.isEmpty_iff.1 hempty]
    exact ⟨0, .start⟩
  | case2 | case3 => cases h
  | case4 table lexemes hempty statement s hs after hafter ih =>
    have hstatement : statement = ⟨.ok s, statement.rest⟩ := by rw [← hs]
    obtain ⟨count, hcomes⟩ := ih h
    exact ⟨count + 1, .turn hstatement hafter hcomes⟩

/-- A run succeeds exactly with the table it has where nothing is left to read. -/
theorem runLexemes_eq_ok_iff {final : Table Series} :
    runLexemes inputs endLine table lexemes = .ok final ↔
      ∃ count, ComesTo inputs endLine table lexemes count final [] := by
  refine ⟨exists_comesTo_of_runLexemes, ?_⟩
  rintro ⟨count, hcomes⟩
  exact hcomes.runLexemes_eq.trans runLexemes_nil

/-- The line of an error in execution is that of a node of the tree, which was read from the
lexemes before the semicolon. -/
theorem exists_line_of_execute {w rest : List Lexeme} {line : Nat} {s : Statement}
    {e : EvaluationError}
    (hs : Statement.parseWhole (scope table endLine) (w ++ ⟨.semicolon, line⟩ :: rest) =
      ⟨.ok s, rest⟩)
    (he : s.execute inputs table = .error e) : ∃ lexeme ∈ w, lexeme.line = e.line := by
  obtain ⟨v, semicolonLine, hlexemes, hv⟩ := Grammar.parseWhole_eq_ok_iff.1 hs
  obtain ⟨rfl, -⟩ := List.append_inj' hlexemes rfl
  obtain ⟨node, hvisits, hfaults⟩ :=
    Expr.exists_faults_of_evaluate (Statement.execute_eq_error_iff.1 he)
  have hmem := hv.everywhere (Grammar.granted_lexeme_mem _) node hvisits.contains
  exact ⟨node.lexeme, hmem, node.line_lexeme.trans hfaults.line_eq.symm⟩

theorem Fails.exists_line (h : Fails inputs endLine table here span failure)
    (hend : ∀ last ∈ here.getLast?, last.line = endLine) :
    ∃ lexeme ∈ span, failure.line? = some lexeme.line := by
  cases h with
  | @taken first w rest e h =>
    rcases Grammar.line_from_of_parseWhole h with ⟨hrest, -⟩ | ⟨taken, htaken, hline⟩
    · exact absurd (List.append_left_eq_self.1 hrest.symm) (List.cons_ne_nil _ _)
    · obtain rfl := List.append_cancel_right htaken
      cases hline with
      | lexeme hmem hline => exact ⟨_, hmem, congrArg some hline.symm⟩
      | call hline => cases hline
      | theEnd hrest =>
        -- nothing is left, so the last token of all is one that was taken
        subst hrest
        rw [List.append_nil] at hend
        have hlast := List.getLast?_eq_some_getLast (List.cons_ne_nil first w)
        exact ⟨_, List.getLast_mem _, congrArg some (hend _ hlast).symm⟩
  | @untaken first rest e h =>
    rcases Grammar.line_from_of_parseWhole h with ⟨-, _, hfirst, hline⟩ | ⟨taken, htaken, hline⟩
    · cases hfirst
      exact ⟨first, List.mem_cons_self .., congrArg some hline.symm⟩
    · obtain rfl := List.append_left_eq_self.1 htaken.symm
      cases hline with
      | lexeme hmem => cases hmem
      | call hline => cases hline
      | theEnd hrest => cases hrest
  | executed hs he =>
    obtain ⟨lexeme, hmem, hline⟩ := exists_line_of_execute hs he
    exact ⟨lexeme, List.mem_append_left _ hmem, congrArg some hline.symm⟩

theorem line_between {lexeme : Lexeme} (h : span.Pairwise fun a b => a.line ≤ b.line)
    (hmem : lexeme ∈ span) : (∀ first ∈ span.head?, first.line ≤ lexeme.line) ∧
      ∀ last ∈ span.getLast?, lexeme.line ≤ last.line := by
  constructor
  · intro first hfirst
    obtain ⟨later, rfl⟩ := List.head?_eq_some_iff.1 hfirst
    rcases List.mem_cons.1 hmem with rfl | hmem
    · exact Nat.le_refl _
    · exact (List.pairwise_cons.1 h).1 lexeme hmem
  · intro last hlast
    obtain ⟨earlier, rfl⟩ := List.getLast?_eq_some_iff.1 hlast
    rcases List.mem_append.1 hmem with hmem | hmem
    · exact (List.pairwise_append.1 h).2.2 lexeme hmem last (List.mem_cons_self ..)
    · exact Nat.le_of_eq (congrArg Lexeme.line (List.mem_singleton.1 hmem))

theorem run_error_line {source : String} {table : Table Series} {lexemes : List Lexeme}
    {failure : Failure} (hlexemes : Token.lexemes source = .ok lexemes)
    (haligned : ∃ n, ∀ entry ∈ table.entries, entry.2.length = n)
    (h : run source table = .error failure) :
    ∃ inputs count reached here span line, Inputs.ofTable table = .ok inputs ∧
      ComesTo inputs (Token.lastLine lexemes) .empty lexemes count reached here ∧
      Fails inputs (Token.lastLine lexemes) reached here span failure ∧
      failure.line? = some line ∧ (∃ lexeme ∈ span, lexeme.line = line) ∧
      (∀ first ∈ span.head?, first.line ≤ line) ∧ ∀ last ∈ span.getLast?, line ≤ last.line := by
  obtain ⟨inputs, hinputs⟩ := Inputs.exists_ofTable_eq_ok_iff.2 haligned
  unfold run at h
  simp only [hinputs, runSource, hlexemes] at h
  obtain ⟨count, reached, here, span, hcomes, hfails⟩ := runLexemes_eq_error_iff.1 h
  have hend : ∀ last ∈ here.getLast?, last.line = Token.lastLine lexemes := by
    intro last hlast
    obtain ⟨earlier, rfl⟩ := hcomes.suffix
    refine (Token.lastLine_eq ?_).symm
    rw [List.getLast?_append, Option.mem_def.1 hlast]
    rfl
  obtain ⟨lexeme, hmem, hline⟩ := hfails.exists_line hend
  have hpairwise : span.Pairwise fun a b => a.line ≤ b.line :=
    (Token.pairwise_line_of_lexemes hlexemes).sublist
      (hfails.sublist.trans hcomes.suffix.sublist)
  obtain ⟨hfirst, hlast⟩ := line_between hpairwise hmem
  exact ⟨inputs, count, reached, here, span, lexeme.line, hinputs, hcomes, hfails, hline,
    ⟨lexeme, hmem, rfl⟩, hfirst, hlast⟩

theorem run_error_line_next_line :
    run "CLOSE;\nCLOSE+\nLOW;" (.ofList [("CLOSE", [1.0])]) =
        .error (.unevaluable (.unboundInput "LOW" 3)) ∧
      ∃ lexemes inputs count reached here span,
        Token.lexemes "CLOSE;\nCLOSE+\nLOW;" = .ok lexemes ∧
        ComesTo inputs (Token.lastLine lexemes) .empty lexemes count reached here ∧
        Fails inputs (Token.lastLine lexemes) reached here span
          (.unevaluable (.unboundInput "LOW" 3)) ∧
        (∃ lexeme ∈ span, lexeme.line = 3) ∧ (∀ first ∈ span.head?, first.line ≤ 3) ∧
        ∀ last ∈ span.getLast?, 3 ≤ last.line := by
  have hlexemes : Token.lexemes "CLOSE;\nCLOSE+\nLOW;" = .ok [⟨.identifier "CLOSE", 1⟩,
      ⟨.semicolon, 1⟩, ⟨.identifier "CLOSE", 2⟩, ⟨.operator .add, 2⟩, ⟨.identifier "LOW", 3⟩,
      ⟨.semicolon, 3⟩] := by
    with_unfolding_all rfl
  have haligned : ∃ n, ∀ entry ∈ (Table.ofList [("CLOSE", [1.0])]).entries, entry.2.length = n :=
    ⟨1, List.forall_mem_singleton.2 rfl⟩
  have hrun : run "CLOSE;\nCLOSE+\nLOW;" (.ofList [("CLOSE", [1.0])]) =
      .error (.unevaluable (.unboundInput "LOW" 3)) := by
    with_unfolding_all rfl
  obtain ⟨inputs, count, reached, here, span, line, -, hcomes, hfails, hline, hbetween⟩ :=
    run_error_line hlexemes haligned hrun
  cases hline
  exact ⟨hrun, _, inputs, count, reached, here, span, hlexemes, hcomes, hfails, hbetween⟩

end Program

end IndicatorFormula
