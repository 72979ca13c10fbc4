import IndicatorFormula.Proofs.Grammar.Reads

/-!
What is read is derived. While an expression is read, the lexemes behind the reader are those that
opened the brackets of the stack and those that the pending sum and product of the level begin
with: `StackRead` and `LevelRead` say that any operand would complete them. Every step leads from
one place to the next (`PlaceRead`), and at the end nothing is open.
-/

namespace IndicatorFormula.Grammar

open IndicatorFormula.Expr (Pending Level Bracket Frame)

variable {scope : Scope} {chain : Chain} {stack : List Frame} {level : Level}
  {u v w lexemes rest : List Lexeme} {e operand : Expr}

def LevelRead (scope : Scope) (chain : Chain) (level : Level) (v : List Lexeme) : Prop :=
  ∃ s p, v = s ++ p ∧
    (∀ w e, IsTerm scope w e → IsChain scope chain (s ++ w) (Pending.close level.sum e)) ∧
    ∀ w e, IsFactor scope w e → IsTerm scope (p ++ w) (Pending.close level.product e)

def BracketRead (scope : Scope) : Bracket → List Lexeme → Prop
  | .group, b => ∃ openLine, b = [⟨.leftParen, openLine⟩]
  | .call f line es, b => ∃ openLine a,
    b = ⟨.identifier f.name, line⟩ :: ⟨.leftParen, openLine⟩ :: a ∧
      ∀ w e, IsSum scope w e → AreArguments scope (a ++ w) (es ++ [e])

def StackRead (scope : Scope) (chain : Chain) : List Frame → List Lexeme → Prop
  | [], u => u = []
  | frame :: stack, u => ∃ u' v b, u = u' ++ v ++ b ∧ StackRead scope chain stack u' ∧
    LevelRead scope (innermost chain stack) frame.outer v ∧ BracketRead scope frame.bracket b

theorem levelRead_empty : LevelRead scope chain .empty [] := by
  refine ⟨[], [], rfl, fun w e h => ?_, fun w e h => .factor h⟩
  cases chain with
  | term => exact h
  | sum => exact .term h

theorem LevelRead.close (h : LevelRead scope chain level v) (hw : IsFactor scope w operand) :
    IsChain scope chain (v ++ w) (level.close operand) := by
  obtain ⟨s, p, rfl, hsum, hproduct⟩ := h
  rw [List.append_assoc]
  exact hsum _ _ (hproduct _ _ hw)

theorem LevelRead.push {op : Operator} (line : Nat) (h : LevelRead scope chain level v)
    (hw : IsFactor scope w operand) (hop : op ∈ operators chain) :
    LevelRead scope chain (level.push operand op line) (v ++ w ++ [⟨.operator op, line⟩]) := by
  rcases add_or_mul op with hadd | hmul
  · -- the chain so far becomes the left side of the pending sum
    have hchain : chain = .sum := by
      cases chain with
      | term => rcases hadd with rfl | rfl <;> exact absurd hop (by decide)
      | sum => rfl
    subst hchain
    rw [Level.push_add line hadd]
    refine ⟨v ++ w ++ [⟨.operator op, line⟩], [], (List.append_nil _).symm, fun w' e' h' => ?_,
      fun w' e' h' => .factor h'⟩
    rw [List.append_assoc]
    exact .chain line (h.close hw) hadd h'
  · obtain ⟨s, p, rfl, hsum, hproduct⟩ := h
    rw [Level.push_mul line hmul]
    refine ⟨s, p ++ w ++ [⟨.operator op, line⟩], by simp only [List.append_assoc], hsum,
      fun w' e' h' => ?_⟩
    rw [List.append_assoc]
    exact .chain line (hproduct _ _ hw) hmul h'

/-- Reading on from `pre`, the chain `e` ends where `rest` begins. -/
def Completes (scope : Scope) (chain : Chain) (pre lexemes rest : List Lexeme) (e : Expr) : Prop :=
  ∃ w, lexemes = w ++ rest ∧ IsChain scope chain (pre ++ w) e ∧ Stops chain (pre ++ w) rest

theorem Completes.cons {pre : List Lexeme} {lexeme : Lexeme}
    (h : Completes scope chain (pre ++ [lexeme]) lexemes rest e) :
    Completes scope chain pre (lexeme :: lexemes) rest e := by
  obtain ⟨w, rfl, hchain, hstops⟩ := h
  rw [List.append_assoc] at hchain hstops
  exact ⟨lexeme :: w, rfl, hchain, hstops⟩

theorem Completes.stop {pre : List Lexeme} (h : IsChain scope chain pre e)
    (hop : ∀ op ∈ operators chain, ∀ line, ⟨.operator op, line⟩ ∉ lexemes.head?)
    (hcall : ¬BeginsCall pre lexemes) : Completes scope chain pre lexemes lexemes e := by
  refine ⟨[], rfl, ?_, hop, ?_⟩
  · rwa [List.append_nil]
  · rwa [List.append_nil]

theorem not_beginsCall_of_token {pre : List Lexeme} {lexeme : Lexeme}
    (h : ∀ name, lexeme.token ≠ .identifier name) : ¬BeginsCall (pre ++ [lexeme]) lexemes := by
  rintro ⟨⟨v, name, line, hv⟩, -⟩
  obtain ⟨-, hlast⟩ := List.append_inj' hv rfl
  exact h name (congrArg Lexeme.token (List.cons.inj hlast).1)

theorem StackRead.group (openLine : Nat) (hu : StackRead scope chain stack u)
    (hv : LevelRead scope (innermost chain stack) level v) :
    StackRead scope chain (⟨.group, level⟩ :: stack) (u ++ v ++ [⟨.leftParen, openLine⟩]) :=
  ⟨u, v, _, rfl, hu, hv, openLine, rfl⟩

theorem StackRead.call (f : Builtin) (line openLine : Nat) (hu : StackRead scope chain stack u)
    (hv : LevelRead scope (innermost chain stack) level v) :
    StackRead scope chain (⟨.call f line [], level⟩ :: stack)
      (u ++ v ++ [⟨.identifier f.name, line⟩] ++ [⟨.leftParen, openLine⟩]) :=
  ⟨u, v, [_, _], List.append_assoc .., hu, hv, openLine, [], rfl, fun _ _ h => .single h⟩

theorem StackRead.more {f : Builtin} {line : Nat} {es : List Expr} {outer : Level}
    (commaLine : Nat) (hu : StackRead scope chain (⟨.call f line es, outer⟩ :: stack) u)
    (hw : IsSum scope w e) :
    StackRead scope chain (⟨.call f line (es ++ [e]), outer⟩ :: stack)
      (u ++ w ++ [⟨.comma, commaLine⟩]) := by
  obtain ⟨u', v, _, rfl, hu', hv, openLine, a, rfl, hes⟩ := hu
  refine ⟨u', v, _, ?_, hu', hv, openLine, a ++ w ++ [⟨.comma, commaLine⟩], rfl,
    fun w' e' h' => ?_⟩
  · simp only [List.append_assoc, List.cons_append]
  · rw [List.append_assoc]
    exact .more commaLine (hes _ _ hw) h'

/-- The lexemes `pre` lead to the place. Behind an operand no call begins: its parenthesis would
belong to the name. -/
inductive PlaceRead (scope : Scope) (chain : Chain) (stack : List Frame) :
    Place → (pre lexemes : List Lexeme) → Prop
  | due {level : Level} {u v lexemes : List Lexeme} (hu : StackRead scope chain stack u)
    (hv : LevelRead scope (innermost chain stack) level v) :
    PlaceRead scope chain stack (.due level) (u ++ v) lexemes
  | behind {level : Level} {operand : Expr} {u v w lexemes : List Lexeme}
    (hu : StackRead scope chain stack u) (hv : LevelRead scope (innermost chain stack) level v)
    (hw : IsFactor scope w operand) (hcall : ¬BeginsCall (u ++ v ++ w) lexemes) :
    PlaceRead scope chain stack (.behind level operand) (u ++ v ++ w) lexemes

namespace PlaceRead

variable {outer : Level} {f : Builtin} {es : List Expr} {callLine : Nat}
  {pre lexemes' : List Lexeme}

theorem begin (hu : StackRead scope chain stack u) :
    PlaceRead scope chain stack (.due .empty) u lexemes := by
  have hplace : PlaceRead scope chain stack (.due .empty) (u ++ []) lexemes :=
    .due hu levelRead_empty
  rwa [List.append_nil] at hplace

theorem factor {lexeme : Lexeme} (h : PlaceRead scope chain stack (.due level) pre lexemes')
    (hw : IsFactor scope [lexeme] e) (hcall : ¬BeginsCall (pre ++ [lexeme]) lexemes) :
    PlaceRead scope chain stack (.behind level e) (pre ++ [lexeme]) lexemes := by
  cases h with
  | due hu hv => exact .behind hu hv hw hcall

theorem openGroup (h : PlaceRead scope chain stack (.due level) pre lexemes') (line : Nat) :
    PlaceRead scope chain (⟨.group, level⟩ :: stack) (.due .empty)
      (pre ++ [⟨.leftParen, line⟩]) lexemes := by
  cases h with
  | due hu hv => exact .begin (hu.group line hv)

theorem openCall (h : PlaceRead scope chain stack (.due level) pre lexemes') (line openLine : Nat) :
    PlaceRead scope chain (⟨.call f line [], level⟩ :: stack) (.due .empty)
      (pre ++ [⟨.identifier f.name, line⟩] ++ [⟨.leftParen, openLine⟩]) lexemes := by
  cases h with
  | due hu hv => exact .begin (hu.call f line openLine hv)

theorem operator {op : Operator}
    (h : PlaceRead scope chain stack (.behind level operand) pre lexemes')
    (hop : op ∈ operators (innermost chain stack)) (line : Nat) :
    PlaceRead scope chain stack (.due (level.push operand op line))
      (pre ++ [⟨.operator op, line⟩]) lexemes := by
  cases h with
  | @behind _ _ u v w _ hu hv hw hcall =>
    have hplace : PlaceRead scope chain stack (.due (level.push operand op line))
        (u ++ (v ++ w ++ [⟨.operator op, line⟩])) lexemes := .due hu (hv.push line hw hop)
    simpa only [List.append_assoc] using hplace

/-- A closing parenthesis ends a factor, and no call begins behind it. -/
theorem closing {line : Nat} (hu : StackRead scope chain stack u)
    (hv : LevelRead scope (innermost chain stack) level v)
    (hw : IsFactor scope (w ++ [⟨.rightParen, line⟩]) operand) :
    PlaceRead scope chain stack (.behind level operand) (u ++ v ++ w ++ [⟨.rightParen, line⟩])
      lexemes := by
  have hcall : ¬BeginsCall (u ++ v ++ w ++ [⟨.rightParen, line⟩]) lexemes :=
    not_beginsCall_of_token fun _ hname => nomatch hname
  rw [List.append_assoc (u ++ v)] at hcall ⊢
  exact .behind hu hv hw hcall

theorem closeGroup
    (h : PlaceRead scope chain (⟨.group, outer⟩ :: stack) (.behind level operand) pre lexemes')
    (line : Nat) :
    PlaceRead scope chain stack (.behind outer (level.close operand))
      (pre ++ [⟨.rightParen, line⟩]) lexemes := by
  cases h with
  | @behind _ _ u v w _ hu hv hw hcall =>
    obtain ⟨u', v', _, rfl, hu', hv', openLine, rfl⟩ := hu
    have hplace : PlaceRead scope chain stack (.behind outer (level.close operand))
        (u' ++ v' ++ ⟨.leftParen, openLine⟩ :: (v ++ w) ++ [⟨.rightParen, line⟩]) lexemes :=
      closing hu' hv' (.group openLine line (hv.close hw))
    simpa only [List.append_assoc, List.cons_append, List.nil_append] using hplace

theorem closeCall (h : PlaceRead scope chain (⟨.call f callLine es, outer⟩ :: stack)
      (.behind level operand) pre lexemes') (hes : Admits f (es ++ [level.close operand]))
    (line : Nat) :
    PlaceRead scope chain stack (.behind outer (.call f (es ++ [level.close operand]) callLine))
      (pre ++ [⟨.rightParen, line⟩]) lexemes := by
  cases h with
  | @behind _ _ u v w _ hu hv hw hcall =>
    obtain ⟨u', v', _, rfl, hu', hv', openLine, a, rfl, ha⟩ := hu
    have hplace : PlaceRead scope chain stack
        (.behind outer (.call f (es ++ [level.close operand]) callLine))
        (u' ++ v' ++ ⟨.identifier f.name, callLine⟩ :: ⟨.leftParen, openLine⟩ :: (a ++ (v ++ w)) ++
          [⟨.rightParen, line⟩]) lexemes :=
      closing hu' hv' (.call callLine openLine line (ha _ _ (hv.close hw)) hes)
    simpa only [List.append_assoc, List.cons_append] using hplace

theorem comma (h : PlaceRead scope chain (⟨.call f callLine es, outer⟩ :: stack)
      (.behind level operand) pre lexemes') (line : Nat) :
    PlaceRead scope chain (⟨.call f callLine (es ++ [level.close operand]), outer⟩ :: stack)
      (.due .empty) (pre ++ [⟨.comma, line⟩]) lexemes := by
  cases h with
  | @behind _ _ u v w _ hu hv hw hcall =>
    rw [List.append_assoc u]
    exact .begin (hu.more line (hv.close hw))

end PlaceRead

/-- What is read on from a place completes what led to it. -/
theorem Reads.completes {place : Place} {p : Parsed Expr} {pre : List Lexeme}
    (h : Reads scope chain stack place lexemes p) (hp : p = ⟨.ok e, rest⟩)
    (hpre : PlaceRead scope chain stack place pre lexemes) :
    Completes scope chain pre lexemes rest e := by
  induction h generalizing pre with
  | nothing | unknownCall hname | unknownName hcall hname | unexpected htoken | unclosed
  | refusedCall hcheck | refused htoken => cases hp
  | @number stack level text line lexemes p h ih =>
    refine (ih hp (hpre.factor (.number text line) ?_)).cons
    exact not_beginsCall_of_token fun _ hname => nomatch hname
  | openGroup h ih => exact (ih hp (hpre.openGroup _)).cons
  | openCall h ih => exact (ih hp (hpre.openCall _ _)).cons.cons
  | name hcall hname h ih =>
    refine (ih hp (hpre.factor (isFactor_of_ofName? hname) ?_)).cons
    rintro ⟨-, openLine, hmem⟩
    exact hcall openLine hmem
  | finish hop =>
    cases hp
    cases hpre with
    | behind hu hv hw hcall =>
      -- nothing is open, so the level closes the chain
      obtain rfl := hu
      exact .stop (hv.close hw) hop hcall
  | operator hop h ih => exact (ih hp (hpre.operator hop _)).cons
  | closeGroup h ih => exact (ih hp (hpre.closeGroup _)).cons
  | closeCall hes h ih => exact (ih hp (hpre.closeCall hes _)).cons
  | comma h ih => exact (ih hp (hpre.comma _)).cons

/-- Whatever is read is derived, and reading stopped where it had to. -/
theorem completes_of_parse (h : Expr.parse scope chain lexemes = ⟨.ok e, rest⟩) :
    ∃ w, lexemes = w ++ rest ∧ IsChain scope chain w e ∧ Stops chain w rest := by
  have hu : StackRead scope chain [] [] := rfl
  exact (reads_parse scope chain lexemes).completes h (.begin hu)

end IndicatorFormula.Grammar
