import IndicatorFormula.Proofs.Grammar.Lines

/-!
The lexeme that the root of an expression stands for, told from the lexemes alone (`IsRoot`): the
last `+` or `-` outside parentheses, else the last `*` or `/`, else the first lexeme inside all the
parentheses around the expression. The line of an expression is that of its root
(`line_of_parse`), which is not the line it begins on where these lines differ
(`not_line_eq_first`).
-/

namespace IndicatorFormula.Grammar

/-! ## Operators outside parentheses -/

/-- Where `depth` parentheses are open. -/
def outerOperators : Nat → List Lexeme → List Lexeme
  | _, [] => []
  | depth, ⟨.leftParen, _⟩ :: rest => outerOperators (depth + 1) rest
  | depth, ⟨.rightParen, _⟩ :: rest => outerOperators (depth - 1) rest
  | 0, ⟨.operator op, line⟩ :: rest => ⟨.operator op, line⟩ :: outerOperators 0 rest
  | depth, _ :: rest => outerOperators depth rest

def joinsTerms (lexeme : Lexeme) : Bool :=
  lexeme.token == .operator .add || lexeme.token == .operator .sub

/-- The operator that is applied last. -/
def mainOperator? (w : List Lexeme) : Option Lexeme :=
  let operators := outerOperators 0 w
  (operators.filter joinsTerms).getLast?.or operators.getLast?

inductive IsRoot : List Lexeme → Lexeme → Prop
  | operator {w : List Lexeme} {root : Lexeme} (h : mainOperator? w = some root) : IsRoot w root
  | word {w : List Lexeme} {root : Lexeme} (hnone : mainOperator? (root :: w) = none)
    (htoken : root.token ≠ .leftParen) : IsRoot (root :: w) root
  | group {w : List Lexeme} {root : Lexeme} (openLine closeLine : Nat)
    (hnone : mainOperator? (⟨.leftParen, openLine⟩ :: w ++ [⟨.rightParen, closeLine⟩]) = none)
    (h : IsRoot w root) :
    IsRoot (⟨.leftParen, openLine⟩ :: w ++ [⟨.rightParen, closeLine⟩]) root

variable {scope : Scope} {chain : Chain} {v w lexemes rest : List Lexeme} {lexeme root : Lexeme}
  {e : Expr} {es : List Expr}

theorem IsRoot.unique {root' : Lexeme} (h : IsRoot w root) (h' : IsRoot w root') :
    root = root' := by
  induction h with
  | operator h =>
    cases h' with
    | operator h' => exact Option.some_inj.1 (h.symm.trans h')
    | word hnone | group _ _ hnone =>
      rw [hnone] at h
      cases h
  | @word w root hnone htoken =>
    cases h' with
    | operator h' =>
      rw [hnone] at h'
      cases h'
    | word => rfl
    | group => exact absurd rfl htoken
  | @group w root openLine closeLine hnone h ih =>
    -- the other root has cases only once the enclosed list is a variable
    generalize hv : (⟨.leftParen, openLine⟩ :: w ++ [⟨.rightParen, closeLine⟩] : List Lexeme) = v
      at h'
    cases h' with
    | operator h' =>
      rw [← hv, hnone] at h'
      cases h'
    | word hnone' htoken =>
      cases hv
      exact absurd rfl htoken
    | group openLine' closeLine' hnone' h' =>
      obtain ⟨-, hv⟩ := List.cons.inj hv
      obtain ⟨rfl, -⟩ := List.append_inj' hv rfl
      exact ih h'

/-- Every parenthesis that is opened is closed, and none other. -/
structure Balanced (w : List Lexeme) : Prop where
  outer : ∀ rest, outerOperators 0 (w ++ rest) = outerOperators 0 w ++ outerOperators 0 rest
  inner : ∀ depth rest, outerOperators (depth + 1) (w ++ rest) = outerOperators (depth + 1) rest

def isParenthesis : Token → Bool
  | .leftParen | .rightParen => true
  | _ => false

theorem balanced_single (htoken : isParenthesis lexeme.token = false) : Balanced [lexeme] := by
  obtain ⟨token, line⟩ := lexeme
  cases token with
  | leftParen | rightParen => cases htoken
  | _ => exact ⟨fun rest => rfl, fun depth rest => rfl⟩

theorem Balanced.append (hv : Balanced v) (hw : Balanced w) : Balanced (v ++ w) where
  outer rest := by
    rw [List.append_assoc, hv.outer, hw.outer, hv.outer, List.append_assoc]
  inner depth rest := by
    rw [List.append_assoc, hv.inner, hw.inner]

theorem Balanced.operator (hv : Balanced v) (hw : Balanced w) (op : Operator) (line : Nat) :
    Balanced (v ++ ⟨.operator op, line⟩ :: w) :=
  hv.append ((balanced_single rfl).append hw)

theorem Balanced.outerOperators_enclosed (h : Balanced w) (openLine closeLine : Nat)
    (rest : List Lexeme) :
    outerOperators 0 (⟨.leftParen, openLine⟩ :: w ++ ⟨.rightParen, closeLine⟩ :: rest) =
      outerOperators 0 rest :=
  h.inner 0 _

theorem Balanced.enclosed (h : Balanced w) (openLine closeLine : Nat) :
    Balanced (⟨.leftParen, openLine⟩ :: w ++ [⟨.rightParen, closeLine⟩]) where
  outer rest := by
    rw [h.outerOperators_enclosed, List.append_assoc]
    exact h.outerOperators_enclosed openLine closeLine rest
  inner depth rest := by
    rw [List.append_assoc]
    exact h.inner (depth + 1) _

mutual

theorem IsFactor.balanced {scope : Scope} {w : List Lexeme} {e : Expr} :
    IsFactor scope w e → Balanced w
  | .number .. | .input .. | .symbol .. => balanced_single rfl
  | .group openLine closeLine h => h.balanced.enclosed openLine closeLine
  | .call _ openLine closeLine h _ =>
    (balanced_single rfl).append (h.balanced.enclosed openLine closeLine)

theorem IsTerm.balanced {scope : Scope} {w : List Lexeme} {e : Expr} :
    IsTerm scope w e → Balanced w
  | .factor h => h.balanced
  | .chain line hl _ hr => hl.balanced.operator hr.balanced _ line

theorem IsSum.balanced {scope : Scope} {w : List Lexeme} {e : Expr} :
    IsSum scope w e → Balanced w
  | .term h => h.balanced
  | .chain line hl _ hr => hl.balanced.operator hr.balanced _ line

theorem AreArguments.balanced {scope : Scope} {w : List Lexeme} {es : List Expr} :
    AreArguments scope w es → Balanced w
  | .single h => h.balanced
  | .more _ hes h => hes.balanced.append ((balanced_single rfl).append h.balanced)

end

/-! ## Main operators -/

theorem Balanced.outerOperators_operator (hv : Balanced v) (op : Operator) (line : Nat) :
    outerOperators 0 (v ++ ⟨.operator op, line⟩ :: w) =
      outerOperators 0 v ++ ⟨.operator op, line⟩ :: outerOperators 0 w :=
  hv.outer _

theorem IsFactor.outerOperators_eq_nil (h : IsFactor scope w e) : outerOperators 0 w = [] := by
  cases h with
  | number | input | symbol => rfl
  | group openLine closeLine h => exact h.balanced.outerOperators_enclosed openLine closeLine []
  | call line openLine closeLine h hes =>
    exact h.balanced.outerOperators_enclosed openLine closeLine []

theorem IsTerm.filter_joinsTerms {scope : Scope} {w : List Lexeme} {e : Expr} :
    IsTerm scope w e → (outerOperators 0 w).filter joinsTerms = []
  | .factor h => by rw [h.outerOperators_eq_nil, List.filter_nil]
  | .chain line hl hop hr => by
    rw [hl.balanced.outerOperators_operator, List.filter_append, hl.filter_joinsTerms,
      hr.outerOperators_eq_nil]
    rcases hop with rfl | rfl <;> rfl

/-- A term has no operator outside parentheses that joins terms, and ends in a factor, which has
none at all. -/
theorem mainOperator?_term {l r : Expr} {op : Operator} {line : Nat} (hl : IsTerm scope v l)
    (hop : op = .mul ∨ op = .div) (hr : IsFactor scope w r) :
    mainOperator? (v ++ ⟨.operator op, line⟩ :: w) = some ⟨.operator op, line⟩ := by
  have hjoins := (IsTerm.chain line hl hop hr).filter_joinsTerms
  unfold mainOperator?
  dsimp only
  rw [hjoins, hl.balanced.outerOperators_operator, hr.outerOperators_eq_nil,
    List.getLast?_nil, Option.none_or, List.getLast?_concat]

theorem mainOperator?_sum {l r : Expr} {op : Operator} {line : Nat} (hl : IsSum scope v l)
    (hop : op = .add ∨ op = .sub) (hr : IsTerm scope w r) :
    mainOperator? (v ++ ⟨.operator op, line⟩ :: w) = some ⟨.operator op, line⟩ := by
  have hjoins : joinsTerms ⟨.operator op, line⟩ = true := by rcases hop with rfl | rfl <;> rfl
  unfold mainOperator?
  dsimp only
  rw [hl.balanced.outerOperators_operator, List.filter_append, List.filter_cons_of_pos hjoins,
    hr.filter_joinsTerms, List.getLast?_concat, Option.some_or]

theorem IsFactor.mainOperator?_eq_none (h : IsFactor scope w e) : mainOperator? w = none := by
  rw [mainOperator?, h.outerOperators_eq_nil]
  rfl

/-! ## Roots -/

mutual

theorem IsFactor.isRoot {scope : Scope} {w : List Lexeme} {e : Expr} :
    IsFactor scope w e → IsRoot w e.lexeme
  | .number .. | .input .. | .symbol .. => .word rfl fun h => nomatch h
  | .group openLine closeLine h =>
    .group openLine closeLine (IsFactor.group openLine closeLine h).mainOperator?_eq_none h.isRoot
  | .call line openLine closeLine h hes =>
    .word (IsFactor.call line openLine closeLine h hes).mainOperator?_eq_none fun h => nomatch h

theorem IsTerm.isRoot {scope : Scope} {w : List Lexeme} {e : Expr} :
    IsTerm scope w e → IsRoot w e.lexeme
  | .factor h => h.isRoot
  | .chain _ hl hop hr => .operator (mainOperator?_term hl hop hr)

theorem IsSum.isRoot {scope : Scope} {w : List Lexeme} {e : Expr} :
    IsSum scope w e → IsRoot w e.lexeme
  | .term h => h.isRoot
  | .chain _ hl hop hr => .operator (mainOperator?_sum hl hop hr)

end

theorem line_of_parse (h : Expr.parse scope chain lexemes = ⟨.ok e, rest⟩) :
    ∃ w root, lexemes = w ++ rest ∧ IsRoot w root ∧ e.lexeme = root ∧ e.line = root.line := by
  obtain ⟨w, rfl, hchain, -⟩ := completes_of_parse h
  have hroot : IsRoot w e.lexeme := by
    cases chain with
    | term => exact IsTerm.isRoot hchain
    | sum => exact IsSum.isRoot hchain
  exact ⟨w, e.lexeme, rfl, hroot, rfl, e.line_lexeme.symm⟩

theorem line_of_parse_group : ∃ w root,
    [⟨.leftParen, 1⟩, ⟨.identifier "CLOSE", 2⟩, ⟨.operator .sub, 3⟩, ⟨.number "1", 4⟩,
      ⟨.rightParen, 5⟩, ⟨.semicolon, 5⟩] = w ++ [⟨.semicolon, 5⟩] ∧
      IsRoot w root ∧ root = ⟨.operator .sub, 3⟩ ∧ 3 = root.line := by
  have hread : Expr.parse ⟨[], 5⟩ .sum
      [⟨.leftParen, 1⟩, ⟨.identifier "CLOSE", 2⟩, ⟨.operator .sub, 3⟩, ⟨.number "1", 4⟩,
        ⟨.rightParen, 5⟩, ⟨.semicolon, 5⟩] =
        ⟨.ok (.binary .sub (.input "CLOSE" 2) (.number "1" 4) 3), [⟨.semicolon, 5⟩]⟩ := by
    with_unfolding_all rfl
  obtain ⟨w, root, hw, hroot, hlexeme, hline⟩ := line_of_parse hread
  exact ⟨w, root, hw, hroot, hlexeme.symm, hline⟩

/-- The sum begins on the first line, and its operator stands on the second. -/
theorem not_line_eq_first :
    ¬∀ (scope : Scope) (lexemes rest : List Lexeme) (e : Expr),
      Expr.parse scope .sum lexemes = ⟨.ok e, rest⟩ →
        ∀ first ∈ lexemes.head?, e.line = first.line := by
  intro h
  have hread : Expr.parse ⟨[], 2⟩ .sum
      [⟨.identifier "CLOSE", 1⟩, ⟨.operator .add, 2⟩, ⟨.number "1", 2⟩] =
        ⟨.ok (.binary .add (.input "CLOSE" 1) (.number "1" 2) 2), []⟩ := by
    with_unfolding_all rfl
  have hline := h _ _ _ _ hread _ rfl
  exact absurd hline (by decide)

end IndicatorFormula.Grammar
