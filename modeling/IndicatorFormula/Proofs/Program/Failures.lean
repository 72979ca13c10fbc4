import IndicatorFormula.Proofs.Evaluation.Faults
import IndicatorFormula.Proofs.Grammar.Nodes
import IndicatorFormula.Proofs.Grammar.Periods
import IndicatorFormula.Proofs.Program.Steps

/-!
The failures a run can end in. What is read was resolved and checked while it was read, so that
executing it finds no symbol without a value and no call of the wrong shape
(`run_failure_arises`).
-/

namespace IndicatorFormula

/-- The failures that the checks made in reading leave: a refused period is zero, no name that was
read is without a value but a price that is not given, and no call has the wrong shape. -/
def Failure.Arises : Failure → Prop
  | unreadable (.nonPositiveArgument f n _) => (f = .hhv ∨ f = .llv) ∧ n = 0
  | unevaluable (.unboundSymbol ..) | unevaluable (.malformedCall ..) => False
  | unevaluable (.unimplemented f _) => f = .sma ∨ f = .wma ∨ f = .ema
  | unevaluable (.unboundInput name _) => isReserved name = true
  | uneven _ | unreadable _ | unevaluable _ => True

theorem Builtin.needsPositivePeriod_iff {f : Builtin} :
    f.needsPositivePeriod = true ↔ f = hhv ∨ f = llv := by
  cases f <;> decide

theorem Builtin.not_isImplemented_iff {f : Builtin} :
    f.isImplemented = false ↔ f = sma ∨ f = wma ∨ f = ema := by
  cases f <;> decide

theorem Token.exists_invalidCharacter_of_scan {line : Nat} {cs : List Char} {e : SyntaxError}
    (h : scan line cs = .error e) : ∃ c at', e = .invalidCharacter c at' := by
  fun_induction scan line cs with
  | case1 line => cases h
  | case2 line rest ih => exact ih h
  | case3 line c rest hnewline hseparator ih => exact ih h
  | case4 line c rest hnewline hseparator hfirst =>
    cases h
    exact ⟨c, line, rfl⟩
  | case5 line c rest hnewline hseparator token after hfirst e' hafter ih =>
    cases h
    exact ih hafter
  | case6 => cases h

variable {inputs : Inputs} {table : Table Series} {endLine : Nat} {lexemes : List Lexeme}

/-- The fault of a node whose names and call were checked against the table. -/
theorem Failure.arises_of_faults {w : List Lexeme} {node : Expr} {error : EvaluationError}
    (hnode : Grammar.IsNode (Program.scope table endLine) w node)
    (hfaults : node.Faults inputs table error) : (unevaluable error).Arises := by
  cases hfaults with
  | number h => trivial
  | input h =>
    cases hnode with
    | input line hname => exact hname
  | @symbol name line h =>
    cases hnode with
    | symbol line hname hscope =>
      have hbound := Table.mem_names_iff.1 hscope
      rw [h] at hbound
      cases hbound
  | operands hl hr h =>
    rcases Series.combine_eq_error_iff.1 h with ⟨-, rfl⟩ | ⟨-, -, index, -, rfl⟩ <;> trivial
  | unimplemented hf => exact Builtin.not_isImplemented_iff.1 hf
  | malformed hf hshape =>
    cases hnode with
    | call line hes =>
      obtain ⟨series, text, textLine, n, rfl, hn, -⟩ := hes hf
      exact hshape ⟨series, _, n, rfl, hn⟩

theorem Failure.arises_of_execute {s : Statement} {error : EvaluationError}
    (hs : (Statement.parseWhole (Program.scope table endLine) lexemes).result = .ok s)
    (h : s.execute inputs table = .error error) : (unevaluable error).Arises := by
  have hparse : Statement.parse (Program.scope table endLine) lexemes =
      ⟨.ok s, (Statement.parse (Program.scope table endLine) lexemes).rest⟩ := by
    rw [← Statement.result_parse_of_parseWhole hs]
  have hnodes := Grammar.areNodes_of_parse hparse
  obtain ⟨node, hvisits, hfaults⟩ :=
    Expr.exists_faults_of_evaluate (Statement.execute_eq_error_iff.1 h)
  exact arises_of_faults (hnodes node hvisits.contains) hfaults

theorem Failure.arises_of_parseWhole {scope : Scope} {e : SyntaxError}
    (hunsigned : Grammar.Unsigned lexemes)
    (h : (Statement.parseWhole scope lexemes).result = .error e) : (unreadable e).Arises := by
  cases e with
  | nonPositiveArgument f n line =>
    obtain ⟨hneeds, hzero⟩ := Grammar.refused_period_of_parseWhole hunsigned h
    exact ⟨Builtin.needsPositivePeriod_iff.1 hneeds, hzero⟩
  | _ => trivial

namespace Program

theorem arises_of_runLexemes {failure : Failure} (hunsigned : Grammar.Unsigned lexemes)
    (h : runLexemes inputs endLine table lexemes = .error failure) : failure.Arises := by
  fun_induction runLexemes inputs endLine table lexemes with
  | case1 table lexemes hempty => cases h
  | case2 table lexemes hempty statement e he =>
    cases h
    exact Failure.arises_of_parseWhole hunsigned he
  | case3 table lexemes hempty statement s hs e he =>
    cases h
    exact Failure.arises_of_execute hs he
  | case4 table lexemes hempty statement s hs after hafter ih =>
    obtain ⟨taken, htaken⟩ := Statement.rest_parseWhole_suffix (scope table endLine) lexemes
    exact ih (Grammar.Unsigned.right (htaken ▸ hunsigned)) h

theorem arises_of_run {source : String} {failure : Failure}
    (h : run source table = .error failure) : failure.Arises := by
  unfold run at h
  split at h
  · cases h
    trivial
  · unfold runSource at h
    split at h
    · next e he =>
      cases h
      obtain ⟨c, line, rfl⟩ := Token.exists_invalidCharacter_of_scan he
      trivial
    · next lexemes hlexemes =>
      exact arises_of_runLexemes (fun _ _ hmem => Token.isNumberText_of_scan hlexemes hmem) h

end Program

namespace Grammar

/-- The second argument of a call is not below zero where the numbers it is read from are not. -/
theorem Everywhere.period_nonneg {scope : Scope} {e series period : Expr} {f : Builtin} {line : Nat}
    {n : Int} (h : Everywhere (IsNode scope) lexemes e) (hunsigned : Unsigned lexemes)
    (hcall : e.Contains (.call f [series, period] line)) (hn : period.integerLiteral? = some n) :
    0 ≤ n := by
  have hperiod : e.Contains period :=
    hcall.trans (.argument (List.mem_cons_of_mem _ (List.mem_cons_self ..)) .self)
  cases h period hperiod with
  | number hmem => exact (hunsigned _ _ hmem).readWord?_nonneg hn
  | _ => cases hn

end Grammar

namespace Program

theorem run_failure_arises (source : String) (table : Table Series) :
    (∀ failure, run source table = .error failure → failure.Arises) ∧
      (∀ scope lexemes rest s, Statement.parse scope lexemes = ⟨.ok s, rest⟩ →
        ∀ node, s.value.Contains node → Grammar.IsNode scope lexemes node) ∧
      ∀ text lexemes scope part rest s, Token.lexemes text = .ok lexemes → part ⊆ lexemes →
        Statement.parse scope part = ⟨.ok s, rest⟩ →
        ∀ f series period line n, s.value.Contains (.call f [series, period] line) →
          period.integerLiteral? = some n → 0 ≤ n := by
  refine ⟨fun failure => arises_of_run, fun scope lexemes rest s => Grammar.areNodes_of_parse, ?_⟩
  intro text lexemes scope part rest s hlexemes hpart hs f series period line n hcall hn
  have hunsigned : Grammar.Unsigned part := fun _ _ hmem =>
    Token.isNumberText_of_scan hlexemes (hpart hmem)
  exact (Grammar.areNodes_of_parse hs).period_nonneg hunsigned hcall hn

theorem run_failure_arises_zero_period :
    run "A:=HHV(CLOSE,00);" (.ofList [("CLOSE", [1.0])]) =
        .error (.unreadable (.nonPositiveArgument .hhv 0 1)) ∧
      (Failure.unreadable (.nonPositiveArgument .hhv 0 1)).Arises := by
  have h : run "A:=HHV(CLOSE,00);" (.ofList [("CLOSE", [1.0])]) =
      .error (.unreadable (.nonPositiveArgument .hhv 0 1)) := by
    with_unfolding_all rfl
  exact ⟨h, (run_failure_arises _ _).1 _ h⟩

end Program

end IndicatorFormula
