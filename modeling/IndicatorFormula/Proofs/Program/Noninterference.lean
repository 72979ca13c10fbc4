import IndicatorFormula.Proofs.Evaluation.Congruence
import IndicatorFormula.Proofs.Grammar.Lines
import IndicatorFormula.Proofs.Grammar.Scopes
import IndicatorFormula.Proofs.Grammar.Semicolons
import IndicatorFormula.Proofs.Program.DataIndependence

/-!
Which inputs a run can depend on. Evaluation looks up an input for a reserved name that stands
among the lexemes and for no other, and numbers take the common length alone. So a run is the same
on any two tables of inputs that agree on these names and pass the check of lengths alike
(`run_noninterference`).
-/

namespace IndicatorFormula

variable {inputs inputs' : Inputs} {table : Table Series} {lexemes v w : List Lexeme}

/-- Two tables have the same series, or both none, under each reserved name that is mentioned. -/
def Agreement (lexemes : List Lexeme) (given given' : Table Series) : Prop :=
  ∀ name, Mentions lexemes name → isReserved name = true → given'.get? name = given.get? name

theorem Agreement.mono {given given' : Table Series} (h : Agreement w given given') (hsub : v ⊆ w) :
    Agreement v given given' :=
  fun name hname => h name (hname.mono hsub)

theorem Agreement.insert {given : Table Series} {name : String}
    (h : Mentions lexemes name → isReserved name = false) (s : Series) :
    Agreement lexemes given (given.insert name s) := by
  intro other hmentions hreserved
  have hne : other ≠ name := by
    rintro rfl
    rw [h hmentions] at hreserved
    cases hreserved
  rw [Table.get?_insert, if_neg hne]

namespace Statement

variable {s : Statement}

theorem execute_congr (h : s.value.evaluate inputs' table = s.value.evaluate inputs table) :
    s.execute inputs' table = s.execute inputs table := by
  cases s with
  | assign name value line =>
    rw [Statement.value] at h
    rw [execute_assign, execute_assign, h]
  | bare value line =>
    rw [Statement.value] at h
    rw [execute_bare, execute_bare, h]

/-- An input node of a statement stands for a reserved name among its lexemes. -/
theorem evaluate_of_agreement {scope : Scope} (hs : Grammar.IsStatement scope w s)
    (hlength : inputs'.length = inputs.length) (hagree : Agreement w inputs.table inputs'.table) :
    s.value.evaluate inputs' table = s.value.evaluate inputs table := by
  refine Expr.evaluate_congr hlength (fun name line hvisits => ?_) fun name line hvisits => rfl
  have hmem := hs.everywhere (Grammar.granted_lexeme_mem _) (.input name line) hvisits.contains
  have hnode := hs.everywhere (Grammar.granted_isNode _) (.input name line) hvisits.contains
  cases hnode with
  | input line hname => exact hagree name ⟨line, hmem⟩ hname

theorem execute_of_agreement {scope : Scope} (table : Table Series)
    (hs : (parseWhole scope lexemes).result = .ok s) (hlength : inputs'.length = inputs.length)
    (hagree : Agreement lexemes inputs.table inputs'.table) :
    s.execute inputs' table = s.execute inputs table := by
  obtain ⟨w, line, hlexemes, hstatement⟩ := Grammar.exists_statement_of_parseWhole hs
  have hsub : w ⊆ lexemes := by
    rw [hlexemes]
    exact List.subset_append_left _ _
  exact execute_congr (evaluate_of_agreement hstatement hlength (hagree.mono hsub))

end Statement

namespace Program

/-- Both runs have the same table at each statement, so that it is read the same. -/
theorem runLexemes_of_agreement (hlength : inputs'.length = inputs.length)
    (hagree : Agreement lexemes inputs.table inputs'.table) (endLine : Nat) :
    runLexemes inputs' endLine table lexemes = runLexemes inputs endLine table lexemes := by
  fun_induction runLexemes inputs endLine table lexemes with
  | case1 table lexemes hempty => rw [List.isEmpty_iff.1 hempty, runLexemes_nil]
  | case2 table lexemes hempty statement e he => exact runLexemes_of_unreadable hempty he
  | case3 table lexemes hempty statement s hs e he =>
    have hexecute := Statement.execute_of_agreement table hs hlength hagree
    exact runLexemes_of_unevaluable hempty hs (hexecute.trans he)
  | case4 table lexemes hempty statement s hs after hafter ih =>
    have hexecute := Statement.execute_of_agreement table hs hlength hagree
    have hrest := Statement.rest_parseWhole_suffix (scope table endLine) lexemes
    rw [runLexemes_of_ok hempty hs (hexecute.trans hafter)]
    exact ih (hagree.mono hrest.subset)

theorem runSource_of_agreement {source : String} (hlength : inputs'.length = inputs.length)
    (hagree : ∀ lexemes, Token.lexemes source = .ok lexemes →
      Agreement lexemes inputs.table inputs'.table) :
    runSource inputs' source = runSource inputs source := by
  unfold runSource
  cases hlexemes : Token.lexemes source with
  | error e => rfl
  | ok lexemes => exact runLexemes_of_agreement hlength (hagree lexemes hlexemes) _

/-- Where the check refuses both tables it reports the same. -/
theorem run_of_agreement {source : String} {given given' : Table Series}
    (hcheck : (Inputs.ofTable given').map Inputs.length = (Inputs.ofTable given).map Inputs.length)
    (hagree : ∀ lexemes, Token.lexemes source = .ok lexemes → Agreement lexemes given given') :
    run source given' = run source given := by
  unfold run
  rcases map_eq_map_cases hcheck with ⟨inputs', inputs, hinputs', hinputs, hlength⟩ | ⟨e, he', he⟩
  · obtain ⟨rfl, -⟩ := Inputs.ofTable_eq_ok_iff.1 hinputs
    obtain ⟨rfl, -⟩ := Inputs.ofTable_eq_ok_iff.1 hinputs'
    rw [hinputs, hinputs']
    exact runSource_of_agreement hlength hagree
  · rw [he, he']

/-- Inputs of one length that agree on the reserved names a formula mentions give the same run. A
series under any other name can change the run only by changing what the check of lengths comes
to. -/
theorem run_noninterference (source : String) :
    (∀ given given' inputs inputs', Inputs.ofTable given = .ok inputs →
      Inputs.ofTable given' = .ok inputs' → inputs'.length = inputs.length →
      (∀ lexemes, Token.lexemes source = .ok lexemes → Agreement lexemes given given') →
      run source given' = run source given) ∧
    ∀ given name s,
      (∀ lexemes, Token.lexemes source = .ok lexemes → Mentions lexemes name →
        isReserved name = false) →
      (Inputs.ofTable (given.insert name s)).map Inputs.length =
        (Inputs.ofTable given).map Inputs.length →
      run source (given.insert name s) = run source given := by
  constructor
  · intro given given' inputs inputs' hinputs hinputs' hlength hagree
    refine run_of_agreement ?_ hagree
    rw [hinputs, hinputs']
    exact congrArg Except.ok hlength
  · intro given name s hname hcheck
    exact run_of_agreement hcheck fun lexemes hlexemes =>
      Agreement.insert (hname lexemes hlexemes) s

/-- `LOW` is mentioned, but `HIGH` is not, and `V` is no reserved name. -/
theorem run_noninterference_low :
    run "V:=LOW*2;V;" (.ofList [("LOW", [1.0, 2.0]), ("V", [7.0, 7.0])]) =
        .ok (.ofList [("V", [2.0, 4.0])]) ∧
      run "V:=LOW*2;V;" (.ofList [("HIGH", [0.0, 5.0]), ("LOW", [1.0, 2.0])]) =
        .ok (.ofList [("V", [2.0, 4.0])]) ∧
      run "V:=LOW*2;V;"
          ((Table.ofList [("LOW", [1.0, 2.0]), ("V", [7.0, 7.0])]).insert "HIGH" [0.0, 5.0]) =
        .ok (.ofList [("V", [2.0, 4.0])]) := by
  have hlexemes : Token.lexemes "V:=LOW*2;V;" = .ok [⟨.identifier "V", 1⟩, ⟨.assign ":=", 1⟩,
      ⟨.identifier "LOW", 1⟩, ⟨.operator .mul, 1⟩, ⟨.number "2", 1⟩, ⟨.semicolon, 1⟩,
      ⟨.identifier "V", 1⟩, ⟨.semicolon, 1⟩] := by
    with_unfolding_all rfl
  have hlow (lexemes : List Lexeme) (h : Token.lexemes "V:=LOW*2;V;" = .ok lexemes)
      (name : String) (hmentions : Mentions lexemes name) (hreserved : isReserved name = true) :
      name = "LOW" := by
    cases hlexemes.symm.trans h
    obtain ⟨line, hmem⟩ := hmentions
    simp only [List.mem_cons, Lexeme.mk.injEq, Token.identifier.injEq, reduceCtorEq, false_and,
      List.not_mem_nil, or_false, false_or] at hmem
    rcases hmem with ⟨rfl, -⟩ | ⟨rfl, -⟩ | ⟨rfl, -⟩
    · cases hreserved
    · rfl
    · cases hreserved
  have hrun : run "V:=LOW*2;V;" (.ofList [("LOW", [1.0, 2.0]), ("V", [7.0, 7.0])]) =
      .ok (.ofList [("V", [2.0, 4.0])]) := by
    with_unfolding_all rfl
  refine ⟨hrun, Eq.trans ?_ hrun, Eq.trans ?_ hrun⟩
  · obtain ⟨inputs, hinputs⟩ := Inputs.exists_ofTable_eq_ok_iff.2
      ⟨2, (by decide : ∀ entry ∈ (Table.ofList [("LOW", [1.0, 2.0]), ("V", [7.0, 7.0])]).entries,
        entry.2.length = 2)⟩
    obtain ⟨inputs', hinputs'⟩ := Inputs.exists_ofTable_eq_ok_iff.2
      ⟨2, (by decide : ∀ entry ∈ (Table.ofList [("HIGH", [0.0, 5.0]), ("LOW", [1.0, 2.0])]).entries,
        entry.2.length = 2)⟩
    have hlength : inputs'.length = inputs.length := by
      rw [(Inputs.ofTable_eq_ok_iff.1 hinputs).2, (Inputs.ofTable_eq_ok_iff.1 hinputs').2]
      decide
    refine (run_noninterference "V:=LOW*2;V;").1 _ _ _ _ hinputs hinputs' hlength ?_
    intro lexemes h name hmentions hreserved
    obtain rfl := hlow lexemes h name hmentions hreserved
    rfl
  · refine (run_noninterference "V:=LOW*2;V;").2 _ _ _ (fun lexemes h hmentions => ?_) ?_
    · rw [← Bool.not_eq_true]
      intro hreserved
      exact absurd (hlow lexemes h "HIGH" hmentions hreserved) (by decide)
    · calc
        _ = Except.ok 2 := by with_unfolding_all rfl
        _ = _ := by with_unfolding_all rfl

end Program

end IndicatorFormula
