import IndicatorFormula.Proofs.Evaluation.Congruence
import IndicatorFormula.Proofs.Grammar.Nodes
import IndicatorFormula.Proofs.Session.Steps
import IndicatorFormula.Table.Lemmas

/-!
A symbol stands for the expression it was assigned: put in its place, the expression comes to the
same series or the same error (`evaluate_substitute`). Only the period of a call is not evaluated,
so that no symbol can stand there.
-/

namespace IndicatorFormula

namespace Expr

mutual

/-- Puts the value in the place of every symbol of the name. -/
def substitute (name : String) (value : Expr) : Expr → Expr
  | number text line => number text line
  | input other line => input other line
  | symbol other line => if other = name then value else symbol other line
  | binary op left right line =>
    binary op (substitute name value left) (substitute name value right) line
  | call f arguments line => call f (substituteAll name value arguments) line

def substituteAll (name : String) (value : Expr) : List Expr → List Expr
  | [] => []
  | e :: es => substitute name value e :: substituteAll name value es

end

/-- Some call has the symbol in the place of its period. -/
def HasPeriod (e : Expr) (name : String) : Prop :=
  ∃ f arguments line periodLine, e.Contains (call f arguments line) ∧
    arguments[1]? = some (symbol name periodLine)

variable {inputs : Inputs} {table : Table Series} {name : String} {value e argument period : Expr}
  {s : Series} {line : Nat}

theorem substituteAll_eq_map (name : String) (value : Expr) (es : List Expr) :
    substituteAll name value es = es.map (substitute name value) := by
  induction es with
  | nil => rw [substituteAll, List.map_nil]
  | cons e es ih => rw [substituteAll, List.map_cons, ih]

theorem substitute_call (f : Builtin) (es : List Expr) (line : Nat) :
    substitute name value (call f es line) = call f (es.map (substitute name value)) line := by
  rw [substitute, substituteAll_eq_map]

theorem integerLiteral?_substitute (h : ∀ line, e ≠ symbol name line) :
    (substitute name value e).integerLiteral? = e.integerLiteral? := by
  cases e with
  | symbol other line =>
    have hother : other ≠ name := by
      rintro rfl
      exact h line rfl
    rw [substitute, if_neg hother]
  | number text line => rw [substitute]
  | input other line => rw [substitute]
  | binary op left right line =>
    rw [substitute]
    rfl
  | call f es line =>
    rw [substitute]
    rfl

theorem HasPeriod.of_contains {node : Expr} (h : node.HasPeriod name)
    (hnode : ∀ below, node.Contains below → e.Contains below) : e.HasPeriod name := by
  obtain ⟨f, es, callLine, periodLine, hcall, hperiod⟩ := h
  exact ⟨f, es, callLine, periodLine, hnode _ hcall, hperiod⟩

theorem evaluate_substitute (hvalue : value.evaluate inputs table = .ok s)
    (hperiod : ¬e.HasPeriod name) : (substitute name value e).evaluate inputs table =
      e.evaluate inputs (table.insert name s) := by
  induction e using Expr.induction_evaluated with
  | number text line => rw [substitute, evaluate, evaluate]
  | input other line => rw [substitute, evaluate, evaluate]
  | symbol other line =>
    rw [substitute, evaluate.eq_3, Table.get?_insert]
    split
    · exact hvalue
    · rw [evaluate]
  | binary op left right line ihl ihr =>
    have hl := ihl fun h => hperiod (h.of_contains fun below hbelow => hbelow.left)
    have hr := ihr fun h => hperiod (h.of_contains fun below hbelow => hbelow.right)
    rw [substitute, evaluate, evaluate, hl, hr]
  | call f es line ih =>
    rw [substitute_call]
    refine evaluate_call_map (fun argument period hes => ?_) line
    subst hes
    -- a period that is not the name keeps its number
    have hnot (periodLine : Nat) : period ≠ symbol name periodLine := by
      rintro rfl
      exact hperiod ⟨f, _, line, periodLine, .self, rfl⟩
    have hargument : ¬argument.HasPeriod name := fun h =>
      hperiod (h.of_contains fun below hbelow => hbelow.argument (List.mem_cons_self ..))
    exact ⟨integerLiteral?_substitute hnot, ih argument period rfl hargument⟩

end Expr

namespace Session

variable {session : Session} {name : String} {value : Expr} {s : Series}

/-- What is assigned may be written out wherever it is read, an earlier value of the name that it
reads itself included. -/
theorem evaluate_after_assign (hvalue : session.evaluate value = .ok s) (line : Nat) (e : Expr)
    (hperiod : ¬e.HasPeriod name) :
    (session.step (.statement (.assign name value line))).evaluate e =
      session.evaluate (Expr.substitute name value e) := by
  have hvalue' := mapError_eq_ok_iff.1 hvalue
  have hexecute : (Statement.assign name value line).execute session.inputs session.table =
      .ok (session.table.insert name s) :=
    Statement.execute_assign_eq_ok_iff.2 ⟨s, hvalue', rfl⟩
  have hstep := step_of_ok ((Step.Runs.statement _).outcome_eq.trans (congrArg _ hexecute))
  rw [hstep, evaluate, evaluate, Expr.evaluate_substitute hvalue' hperiod]

/-- The new value of the name is twice the old one, and is read twice. -/
theorem evaluate_after_assign_twice :
    let session : Session := ⟨Expr.threeCloses, .ofList [("A", [1.0, 2.0, 4.0])]⟩
    let value : Expr := .binary .mul (.symbol "A" 1) (.number "2" 1) 1
    let e : Expr := .binary .add (.symbol "A" 2) (.call .ref [.symbol "A" 2, .number "1" 2] 2) 2
    session.evaluate value = .ok [2.0, 4.0, 8.0] ∧ ¬e.HasPeriod "A" ∧
      (session.step (.statement (.assign "A" value 1))).evaluate e =
        session.evaluate (Expr.substitute "A" value e) ∧
      (session.evaluate (Expr.substitute "A" value e)).toOption =
        some [Series.missing, 6.0, 12.0] := by
  intro session value e
  have hvalue : session.evaluate value = .ok [2.0, 4.0, 8.0] := by
    with_unfolding_all rfl
  have hperiod : ¬e.HasPeriod "A" := by
    rintro ⟨f, es, line, periodLine, hcall, hsecond⟩
    simp only [e] at hcall
    cases hcall with
    | left h => cases h
    | right h =>
      cases h with
      | self => cases hsecond
      | argument hmem h =>
        rcases List.mem_cons.1 hmem with rfl | hmem
        · cases h
        · obtain rfl := List.mem_singleton.1 hmem
          cases h
  refine ⟨hvalue, hperiod, evaluate_after_assign hvalue 1 e hperiod, ?_⟩
  decide +kernel

/-- In the place of a period the symbol is not read, and the number it was assigned would be. -/
example :
    let session : Session := ⟨Expr.threeCloses, .ofList [("A", [1.0, 1.0, 1.0])]⟩
    let e : Expr := .call .ref [.input "CLOSE" 1, .symbol "A" 1] 1
    session.evaluate e = .error (.unevaluable (.malformedCall .ref 1)) ∧
      session.evaluate (Expr.substitute "A" (.number "1" 1) e) =
        .ok [Series.missing, 1.0, 2.0] := by
  constructor
  · with_unfolding_all rfl
  · with_unfolding_all rfl

end Session

end IndicatorFormula
