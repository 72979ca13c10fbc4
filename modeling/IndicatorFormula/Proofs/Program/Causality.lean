import IndicatorFormula.Proofs.Evaluation.Inversion
import IndicatorFormula.Proofs.Grammar.Offsets
import IndicatorFormula.Proofs.Inputs.Alignment
import IndicatorFormula.Proofs.Program.Steps
import IndicatorFormula.Proofs.Series.Pointwise
import IndicatorFormula.Proofs.Series.Prefix
import IndicatorFormula.Proofs.Table.Map

/-!
A run on the first `k` points of its inputs gives the first `k` points of what it gives on all of
them (`run_causal`): what a formula says of a moment never depends on a later one. A lag keeps to
this where its offset is not negative, and an offset that is read from a text has no sign.
-/

namespace IndicatorFormula

theorem Series.combine_take {op : Operator} {line : Nat} {l r s : Series}
    (h : combine op line l r = .ok s) (k : Nat) :
    combine op line (l.take k) (r.take k) = .ok (s.take k) := by
  obtain ⟨hlength, hdivisor, rfl⟩ := combine_eq_ok_iff.1 h
  refine combine_eq_ok_iff.2 ⟨?_, fun hop x hx => ?_, (List.take_zipWith ..).symm⟩
  · rw [List.length_take, List.length_take, hlength]
  · exact hdivisor hop x (List.mem_of_mem_take hx)

def Table.take (table : Table Series) (k : Nat) : Table Series :=
  table.map (List.take k)

def Inputs.take (inputs : Inputs) (k : Nat) : Inputs where
  table := inputs.table.take k
  length := min k inputs.length
  aligned := by
    intro entry hentry
    obtain ⟨original, horiginal, rfl⟩ := List.mem_map.1 hentry
    rw [List.length_take, inputs.aligned original horiginal]

theorem Inputs.ofTable_take {table : Table Series} {inputs : Inputs}
    (h : ofTable table = .ok inputs) (k : Nat) : ofTable (table.take k) = .ok (inputs.take k) := by
  obtain ⟨rfl, hlength⟩ := ofTable_eq_ok_iff.1 h
  refine ofTable_eq_ok_iff.2 ⟨rfl, ?_⟩
  change min k inputs.length =
    ((inputs.table.entries.map fun entry => (entry.1, entry.2.take k)).head?.map
      fun entry => entry.2.length).getD 0
  rw [hlength, firstLength]
  cases inputs.table.entries with
  | nil => exact Nat.min_zero k
  | cons entry entries => exact (List.length_take ..).symm

theorem Builtin.series?_take {f : Builtin} {g : Series → Int → Series} (h : f.series? = some g)
    {n : Int} (hn : 0 ≤ n) (s : Series) (k : Nat) : g (s.take k) n = (g s n).take k := by
  cases f <;> cases h
  · exact Series.overWindows_take ..
  · exact Series.lag_take hn s k
  · exact Series.overWindows_take ..
  · exact Series.overWindows_take ..

theorem Expr.evaluate_take {inputs : Inputs} {table : Table Series} {e : Expr} {s : Series}
    (hback : e.LooksBack) (h : e.evaluate inputs table = .ok s) (k : Nat) :
    e.evaluate (inputs.take k) (table.take k) = .ok (s.take k) := by
  induction e using Expr.induction_evaluated generalizing s with
  | number text line =>
    obtain ⟨x, hx, rfl⟩ := evaluate_number_eq_ok_iff.1 h
    exact evaluate_number_eq_ok_iff.2 ⟨x, hx, (List.take_replicate ..).symm⟩
  | input name line =>
    have hs := evaluate_input_eq_ok_iff.1 h
    rw [evaluate_input_eq_ok_iff]
    exact (Table.get?_map ..).trans (congrArg (Option.map (List.take k)) hs)
  | symbol name line =>
    have hs := evaluate_symbol_eq_ok_iff.1 h
    rw [evaluate_symbol_eq_ok_iff]
    exact (Table.get?_map ..).trans (congrArg (Option.map (List.take k)) hs)
  | binary op left right line ihl ihr =>
    obtain ⟨l, hl, r, hr, hs⟩ := evaluate_binary_eq_ok_iff.1 h
    exact evaluate_binary_eq_ok_iff.2
      ⟨_, ihl hback.1 hl, _, ihr hback.2 hr, Series.combine_take hs k⟩
  | call f es line ih =>
    obtain ⟨g, argument, period, n, x, hg, rfl, hn, hx, rfl⟩ := evaluate_call_eq_ok_iff.1 h
    have hargument : argument.LooksBack ∧ ∀ n, period.integerLiteral? = some n → 0 ≤ n := hback
    exact evaluate_call_eq_ok_iff.2 ⟨g, argument, period, n, _, hg, rfl, hn,
      ih argument period rfl hargument.1 hx, Builtin.series?_take hg (hargument.2 n hn) x k⟩

def Statement.LooksBack : Statement → Prop
  | .assign _ value _ | .bare value _ => value.LooksBack

theorem Statement.execute_take {inputs : Inputs} {table after : Table Series} {s : Statement}
    (hback : s.LooksBack) (h : s.execute inputs table = .ok after) (k : Nat) :
    s.execute (inputs.take k) (table.take k) = .ok (after.take k) := by
  cases s with
  | assign name value line =>
    obtain ⟨series, hseries, rfl⟩ := execute_assign_eq_ok_iff.1 h
    exact execute_assign_eq_ok_iff.2
      ⟨_, Expr.evaluate_take hback hseries k, (Table.map_insert ..).symm⟩
  | bare value line =>
    obtain ⟨⟨series, hseries⟩, rfl⟩ := execute_bare_eq_ok_iff.1 h
    exact execute_bare_eq_ok_iff.2 ⟨⟨_, Expr.evaluate_take hback hseries k⟩, rfl⟩

theorem Statement.looksBack_of_parseWhole {scope : Scope} {lexemes : List Lexeme} {s : Statement}
    (hunsigned : Grammar.Unsigned lexemes) (h : (parseWhole scope lexemes).result = .ok s) :
    s.LooksBack := by
  have hresult := result_parse_of_parseWhole h
  have hparse : parse scope lexemes = ⟨.ok s, (parse scope lexemes).rest⟩ := by
    rw [← hresult]
  obtain ⟨w, hlexemes, hstatement, -, -⟩ := Grammar.statement_of_parse hparse
  have hw : Grammar.Unsigned w := Grammar.Unsigned.left (hlexemes ▸ hunsigned)
  cases hstatement with
  | assign mark line markLine hname hsum => exact (hsum.isUnsigned hw.tail.tail).1
  | bare hsum => exact (hsum.isUnsigned hw).1

namespace Program

theorem runLexemes_take {inputs : Inputs} {endLine : Nat} {table final : Table Series}
    {lexemes : List Lexeme} (hunsigned : Grammar.Unsigned lexemes)
    (h : runLexemes inputs endLine table lexemes = .ok final) (k : Nat) :
    runLexemes (inputs.take k) endLine (table.take k) lexemes = .ok (final.take k) := by
  fun_induction runLexemes inputs endLine table lexemes with
  | case1 table lexemes hempty =>
    cases h
    rw [List.isEmpty_iff.1 hempty]
    exact runLexemes_nil
  | case2 table lexemes hempty statement e => cases h
  | case3 table lexemes hempty statement s hs e => cases h
  | case4 table lexemes hempty statement s hs after hafter =>
    rename_i ih
    -- the shorter table has the same names, so the next statement is read the same
    have hscope : scope (table.take k) endLine = scope table endLine := by
      rw [scope, scope, Table.take, Table.names_map]
    have hback := Statement.looksBack_of_parseWhole hunsigned hs
    have hexecute := Statement.execute_take hback hafter k
    have hrest : Grammar.Unsigned statement.rest := by
      obtain ⟨taken, htaken⟩ := Statement.rest_parseWhole_suffix (scope table endLine) lexemes
      exact Grammar.Unsigned.right (htaken ▸ hunsigned)
    have hs' : (Statement.parseWhole (scope (table.take k) endLine) lexemes).result = .ok s := by
      rw [hscope]
      exact hs
    rw [runLexemes_of_ok hempty hs' hexecute, hscope]
    exact ih hrest h

theorem run_take {source : String} {table final : Table Series}
    (h : run source table = .ok final) (k : Nat) :
    run source (table.take k) = .ok (final.take k) := by
  unfold run at h ⊢
  cases hinputs : Inputs.ofTable table with
  | error cause =>
    rw [hinputs] at h
    cases h
  | ok inputs =>
    rw [hinputs] at h
    rw [Inputs.ofTable_take hinputs k]
    unfold runSource at h ⊢
    cases hlexemes : Token.lexemes source with
    | error e =>
      rw [hlexemes] at h
      cases h
    | ok lexemes =>
      rw [hlexemes] at h
      have hunsigned : Grammar.Unsigned lexemes := fun text line hmem =>
        Token.isNumberText_of_scan hlexemes hmem
      exact runLexemes_take hunsigned h k

/-- What a run gives up to a moment is fixed by its inputs up to that moment, though a lag as such
can look ahead. -/
theorem run_causal {source : String} {table final : Table Series}
    (h : run source table = .ok final) :
    (∀ k, run source (table.take k) = .ok (final.take k)) ∧
      (∀ k table' final', table'.take k = table.take k → run source table' = .ok final' →
        final'.take k = final.take k) ∧
      ∀ (s : Series) (i ahead : Nat), i + ahead < s.length → FitsWord s.length →
        (s.lag (-ahead))[i]? = s[i + ahead]? := by
  refine ⟨run_take h, fun k table' final' htable h' => ?_,
    fun s i ahead => Series.getElem?_lag_ahead⟩
  have hprefix := run_take h k
  rw [← htable, run_take h' k] at hprefix
  exact Except.ok.inj hprefix

theorem run_causal_lag :
    run "A:=REF(CLOSE,1);" (.ofList [("CLOSE", [1.0, 2.0])]) =
        .ok (.ofList [("A", [Series.missing, 1.0])]) ∧
      run "A:=REF(CLOSE,1);" (Table.take (.ofList [("CLOSE", [1.0, 2.0])]) 1) =
        .ok (Table.take (.ofList [("A", [Series.missing, 1.0])]) 1) := by
  have h : run "A:=REF(CLOSE,1);" (.ofList [("CLOSE", [1.0, 2.0])]) =
      .ok (.ofList [("A", [Series.missing, 1.0])]) := by
    with_unfolding_all rfl
  exact ⟨h, (run_causal h).1 1⟩

end Program

end IndicatorFormula
