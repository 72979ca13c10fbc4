import IndicatorFormula.Proofs.Grammar

/-!
Single steps of reading an expression, each said once: when an operator continues a chain, what a
name and a call resolve to, and what happens at a token that fits nowhere.
-/

namespace IndicatorFormula.Grammar

open IndicatorFormula.Expr (Pending Level Frame parseOperand parseAfter)

variable {scope : Scope} {chain : Chain} {stack : List Frame} {level : Level} {frame : Frame}
  {lexemes : List Lexeme} {e operand : Expr} {line : Nat}

/-- The chain that the next operand belongs to: inside a bracket always a sum. -/
def innermost (chain : Chain) (stack : List Frame) : Chain :=
  if stack.isEmpty then chain else .sum

theorem mem_operators_sum (op : Operator) : op ∈ operators .sum := by
  cases op <;> decide

theorem add_or_mul (op : Operator) : (op = .add ∨ op = .sub) ∨ op = .mul ∨ op = .div := by
  cases op <;> decide

theorem Level.push_mul {op : Operator} (line : Nat) (hop : op = .mul ∨ op = .div) :
    level.push operand op line =
      ⟨level.sum, some ⟨Pending.close level.product operand, op, line⟩⟩ := by
  rcases hop with rfl | rfl <;> rfl

theorem Level.push_add {op : Operator} (line : Nat) (hop : op = .add ∨ op = .sub) :
    level.push operand op line = ⟨some ⟨level.close operand, op, line⟩, none⟩ := by
  rcases hop with rfl | rfl <;> rfl

theorem continues_iff {op : Operator} :
    Expr.continues chain stack op = true ↔ op ∈ operators (innermost chain stack) := by
  cases stack with
  | nil => cases chain <;> cases op <;> decide
  | cons frame stack =>
    refine iff_of_true ?_ (mem_operators_sum op)
    simp only [Expr.continues, List.isEmpty_cons, Bool.not_false, Bool.or_true, Bool.true_or]

theorem eq_nil_of_not_continues {op : Operator} (h : ¬Expr.continues chain stack op = true) :
    stack = [] := by
  cases stack with
  | nil => rfl
  | cons frame stack => exact absurd (continues_iff.2 (mem_operators_sum op)) h

theorem isFactor_of_ofName? {name : String} (h : Expr.ofName? scope name line = some e) :
    IsFactor scope [⟨.identifier name, line⟩] e := by
  unfold Expr.ofName? at h
  split at h
  · next hname =>
    cases h
    exact .input line hname
  · next hname =>
    split at h
    · next hscope =>
      cases h
      exact .symbol line (Bool.not_eq_true _ ▸ hname) (List.contains_iff_mem.1 hscope)
    · cases h

theorem ofName?_input {name : String} (hname : isReserved name = true) :
    Expr.ofName? scope name line = some (.input name line) :=
  if_pos hname

theorem ofName?_symbol {name : String} (hname : isReserved name = false)
    (hscope : name ∈ scope.names) : Expr.ofName? scope name line = some (.symbol name line) := by
  unfold Expr.ofName?
  rw [hname, if_neg Bool.false_ne_true, if_pos (List.contains_iff_mem.2 hscope)]

theorem admits_of_ofCall {f : Builtin} {es : List Expr} (h : Expr.ofCall f es line = .ok e) :
    e = .call f es line ∧ Admits f es := by
  unfold Expr.ofCall at h
  split at h
  · split at h
    · next series period =>
      split at h
      · cases h
      · next n hn =>
        split at h
        · cases h
        · next hpositive =>
          cases h
          refine ⟨rfl, fun _ => ?_⟩
          cases period with
          | number text periodLine =>
            refine ⟨series, text, periodLine, n, rfl, hn, fun hneeds => ?_⟩
            rw [hneeds, Bool.true_and, decide_eq_true_eq] at hpositive
            exact Int.not_le.1 hpositive
          | _ => cases hn
    · cases h
  · next himplemented =>
    cases h
    exact ⟨rfl, fun h => absurd h himplemented⟩

theorem ofCall_of_admits {f : Builtin} {es : List Expr} (h : Admits f es) :
    Expr.ofCall f es line = .ok (.call f es line) := by
  unfold Expr.ofCall
  split
  · next hf =>
    obtain ⟨series, text, periodLine, n, rfl, hn, hpositive⟩ := h hf
    have hcheck : (f.needsPositivePeriod && decide (n ≤ 0)) = false := by
      rw [Bool.and_eq_false_imp]
      exact fun hneeds => decide_eq_false (Int.not_le.2 (hpositive hneeds))
    simp only [Expr.integerLiteral?, hn, hcheck, Bool.false_eq_true, if_false]
  · rfl

/-- The three ways in which the arguments of a call can be wrong. -/
theorem ofCall_eq_error_cases {f : Builtin} {es : List Expr} {error : SyntaxError}
    (h : Expr.ofCall f es line = .error error) :
    error = .wrongArgumentCount f 2 es.length line ∨ error = .nonIntegerArgument f line ∨
      ∃ series period n, es = [series, period] ∧ period.integerLiteral? = some n ∧
        f.needsPositivePeriod = true ∧ n ≤ 0 ∧ error = .nonPositiveArgument f n line := by
  unfold Expr.ofCall at h
  split at h
  · split at h
    · next series period =>
      split at h
      · cases h
        exact .inr (.inl rfl)
      · next n hn =>
        split at h
        · next hcheck =>
          cases h
          rw [Bool.and_eq_true, decide_eq_true_eq] at hcheck
          exact .inr (.inr ⟨series, period, n, rfl, hn, hcheck.1, hcheck.2, rfl⟩)
        · cases h
    · cases h
      exact .inl rfl
  · cases h

/-- A name with no parenthesis behind it stands for itself. -/
theorem parseOperand_name {name : String}
    (hcall : ∀ openLine tail, lexemes = ⟨.leftParen, openLine⟩ :: tail → False) :
    parseOperand scope chain stack level (⟨.identifier name, line⟩ :: lexemes) =
      match Expr.ofName? scope name line with
      | none => ⟨.error (.undefinedName name line), lexemes⟩
      | some value => parseAfter scope chain stack level value lexemes := by
  cases lexemes with
  | nil => rfl
  | cons lexeme tail =>
    obtain ⟨token, openLine⟩ := lexeme
    cases token with
    | leftParen => exact (hcall _ _ rfl).elim
    | _ => rfl

theorem parseOperand_unexpected {token : Token} (hnumber : ∀ text, token ≠ .number text)
    (hname : ∀ name, token ≠ .identifier name) (hparen : token ≠ .leftParen) :
    parseOperand scope chain stack level (⟨token, line⟩ :: lexemes) =
      ⟨.error (.unexpectedToken token line), lexemes⟩ := by
  cases token with
  | number text => exact absurd rfl (hnumber text)
  | identifier name => exact absurd rfl (hname name)
  | leftParen => exact absurd rfl hparen
  | _ => rfl

theorem parseAfter_operator {op : Operator} (hop : op ∈ operators (innermost chain stack)) :
    parseAfter scope chain stack level operand (⟨.operator op, line⟩ :: lexemes) =
      parseOperand scope chain stack (level.push operand op line) lexemes := by
  rw [parseAfter]
  exact if_pos (continues_iff.2 hop)

/-- Outside brackets a token that continues nothing ends the expression. -/
theorem parseAfter_stop
    (hop : ∀ op ∈ operators chain, ∀ line, ⟨.operator op, line⟩ ∉ lexemes.head?) :
    parseAfter scope chain [] level operand lexemes = ⟨.ok (level.close operand), lexemes⟩ := by
  cases lexemes with
  | nil => rfl
  | cons lexeme lexemes =>
    obtain ⟨token, line⟩ := lexeme
    cases token with
    | operator op =>
      rw [parseAfter]
      refine if_neg fun hcontinues => ?_
      exact hop op (continues_iff.1 hcontinues) line rfl
    | _ => rfl

theorem operator_not_mem_head? {token : Token} (h : ∀ op, token ≠ .operator op) (op : Operator)
    (line' : Nat) : ⟨.operator op, line'⟩ ∉ (⟨token, line⟩ :: lexemes).head? := by
  intro hmem
  cases hmem
  exact h op rfl

/-- Inside a bracket it is refused. -/
theorem parseAfter_refused {token : Token} (hop : ∀ op, token ≠ .operator op)
    (hgroup : ∀ outer, token = .rightParen → frame ≠ ⟨.group, outer⟩)
    (hclose : ∀ f callLine es outer, token = .rightParen → frame ≠ ⟨.call f callLine es, outer⟩)
    (hcomma : ∀ f callLine es outer, token = .comma → frame ≠ ⟨.call f callLine es, outer⟩) :
    parseAfter scope chain (frame :: stack) level operand (⟨token, line⟩ :: lexemes) =
      ⟨.error (.expectedToken frame.bracket.expectation (some token) line), lexemes⟩ := by
  rcases frame with ⟨_ | ⟨f, callLine, es⟩, outer⟩
  · cases token with
    | operator op => exact absurd rfl (hop op)
    | rightParen => exact absurd rfl (hgroup outer rfl)
    | _ => rfl
  · cases token with
    | operator op => exact absurd rfl (hop op)
    | rightParen => exact absurd rfl (hclose f callLine es outer rfl)
    | comma => exact absurd rfl (hcomma f callLine es outer rfl)
    | _ => rfl

end IndicatorFormula.Grammar
