import IndicatorFormula.Proofs.Evaluation.Faults

/-!
What evaluation depends on: the length of the inputs, and the values of the names it comes to
(`evaluate_congr`). Of a call it sees the series of the first argument and the number that the
second is (`evaluate_call_map`).
-/

namespace IndicatorFormula.Expr

variable {inputs inputs' : Inputs} {table table' : Table Series} {e : Expr}

theorem evaluate_call_map {f : Builtin} {es : List Expr} {g : Expr → Expr}
    (h : ∀ argument period, es = [argument, period] →
      (g period).integerLiteral? = period.integerLiteral? ∧
        (g argument).evaluate inputs' table' = argument.evaluate inputs table) (line : Nat) :
    evaluate inputs' table' (call f (es.map g) line) = evaluate inputs table (call f es line) := by
  rcases es with _ | ⟨argument, _ | ⟨period, _ | ⟨third, es⟩⟩⟩
  case cons.cons.nil =>
    obtain ⟨hperiod, hargument⟩ := h argument period rfl
    simp only [List.map_cons, List.map_nil, evaluate, hperiod, hargument]
  all_goals simp only [List.map_cons, List.map_nil, evaluate]

theorem evaluate_congr (hlength : inputs'.length = inputs.length)
    (hinputs : ∀ name line, e.Visits (input name line) → inputs'.get? name = inputs.get? name)
    (hsymbols : ∀ name line, e.Visits (symbol name line) → table'.get? name = table.get? name) :
    e.evaluate inputs' table' = e.evaluate inputs table := by
  induction e using Expr.induction_evaluated with
  | number text line => rw [evaluate, evaluate, hlength]
  | input name line => rw [evaluate, evaluate, hinputs name line .self]
  | symbol name line => rw [evaluate, evaluate, hsymbols name line .self]
  | binary op left right line ihl ihr =>
    have hl := ihl (fun name line h => hinputs name line h.left)
      fun name line h => hsymbols name line h.left
    have hr := ihr (fun name line h => hinputs name line h.right)
      fun name line h => hsymbols name line h.right
    rw [evaluate, evaluate, hl, hr]
  | call f es line ih =>
    have hcall : evaluate inputs' table' (call f (es.map id) line) =
        evaluate inputs table (call f es line) := by
      refine evaluate_call_map (fun argument period hes => ⟨rfl, ?_⟩) line
      subst hes
      exact ih argument period rfl (fun name line h => hinputs name line h.argument)
        fun name line h => hsymbols name line h.argument
    rwa [List.map_id] at hcall

end IndicatorFormula.Expr
