import IndicatorFormula.Error
import IndicatorFormula.Expr

/-!
The expressions of a formula, read from its lexemes.

An expression is a chain of terms joined by `+` and `-`, a term is a chain of factors joined by
`*` and `/`, both grouped to the left. A factor is a number, a name, an expression in parentheses
or a call. An expression ends where a token can neither continue it nor close one of its brackets.

Reading goes through the lexemes once. What is open around the next operand is kept aside: the sum
and the product it may belong to, and for each open bracket those around the bracket.
-/

namespace IndicatorFormula

/-- What reading makes of a list of lexemes, and the lexemes it left. -/
structure Parsed (α : Type) where
  result : Except SyntaxError α
  rest : List Lexeme

/-- The names that may be read, and the line of the end of the formula. -/
structure Scope where
  names : List String
  endLine : Nat

/-- Chains of `term` are joined by `*` and `/` only. -/
inductive Chain
  | term
  | sum
  deriving DecidableEq, Repr

namespace Expr

/-- An operator with its left operand; the right one is still to come. -/
structure Pending where
  left : Expr
  operator : Operator
  line : Nat

def Pending.close : Option Pending → Expr → Expr
  | none, right => right
  | some p, right => binary p.operator p.left right p.line

/-- The sum and the product the next operand may belong to. -/
structure Level where
  sum : Option Pending
  product : Option Pending

namespace Level

def empty : Level :=
  ⟨none, none⟩

def close (level : Level) (operand : Expr) : Expr :=
  Pending.close level.sum (Pending.close level.product operand)

/-- The level after an operand and an operator. -/
def push (level : Level) (operand : Expr) (operator : Operator) (line : Nat) : Level :=
  match operator with
  | .mul | .div => ⟨level.sum, some ⟨Pending.close level.product operand, operator, line⟩⟩
  | .add | .sub => ⟨some ⟨level.close operand, operator, line⟩, none⟩

end Level

inductive Bracket
  | group
  | call (function : Builtin) (line : Nat) (arguments : List Expr)

def Bracket.expectation : Bracket → Expectation
  | group => .closing
  | call .. => .separatorOrClosing

/-- An open bracket and the level around it. -/
structure Frame where
  bracket : Bracket
  outer : Level

/-- What a name stands for that is not called. -/
def ofName? (scope : Scope) (name : String) (line : Nat) : Option Expr :=
  if isReserved name then some (input name line)
  else if scope.names.contains name then some (symbol name line)
  else none

/-- A call of a function that can be evaluated has two arguments, the second a whole number, which
is the period or the offset. -/
def ofCall (function : Builtin) (arguments : List Expr) (line : Nat) : Except SyntaxError Expr :=
  if function.isImplemented then
    match arguments with
    | [_, period] =>
      match period.integerLiteral? with
      | none => .error (.nonIntegerArgument function line)
      | some n =>
        if function.needsPositivePeriod && decide (n ≤ 0) then
          .error (.nonPositiveArgument function n line)
        else .ok (call function arguments line)
    | _ => .error (.wrongArgumentCount function 2 arguments.length line)
  else .ok (call function arguments line)

/-- Whether an operator continues the expression: only a chain of factors that stands in no bracket
ends at `+` or `-`. -/
def continues (chain : Chain) (stack : List Frame) (operator : Operator) : Bool :=
  chain == .sum || !stack.isEmpty || operator == .mul || operator == .div

mutual

/-- Reads on where an operand is due. -/
def parseOperand (scope : Scope) (chain : Chain) (stack : List Frame) (level : Level) :
    List Lexeme → Parsed Expr
  | [] => ⟨.error (.unexpectedEnd scope.endLine), []⟩
  | ⟨.number text, line⟩ :: rest => parseAfter scope chain stack level (number text line) rest
  | ⟨.leftParen, _⟩ :: rest => parseOperand scope chain (⟨.group, level⟩ :: stack) .empty rest
  | ⟨.identifier name, line⟩ :: ⟨.leftParen, _⟩ :: rest =>
    match Builtin.ofName? name with
    | none => ⟨.error (.undefinedName name line), rest⟩
    | some f => parseOperand scope chain (⟨.call f line [], level⟩ :: stack) .empty rest
  | ⟨.identifier name, line⟩ :: rest =>
    match ofName? scope name line with
    | none => ⟨.error (.undefinedName name line), rest⟩
    | some value => parseAfter scope chain stack level value rest
  | ⟨token, line⟩ :: rest => ⟨.error (.unexpectedToken token line), rest⟩

/-- Reads on behind an operand. -/
def parseAfter (scope : Scope) (chain : Chain) (stack : List Frame) (level : Level)
    (operand : Expr) : List Lexeme → Parsed Expr
  | [] =>
    match stack with
    | [] => ⟨.ok (level.close operand), []⟩
    | frame :: _ =>
      ⟨.error (.expectedToken frame.bracket.expectation none scope.endLine), []⟩
  | ⟨token, line⟩ :: rest =>
    match token, stack with
    | .operator op, stack =>
      if continues chain stack op then
        parseOperand scope chain stack (level.push operand op line) rest
      else ⟨.ok (level.close operand), ⟨.operator op, line⟩ :: rest⟩
    | .rightParen, ⟨.group, outer⟩ :: stack =>
      parseAfter scope chain stack outer (level.close operand) rest
    | .rightParen, ⟨.call f callLine arguments, outer⟩ :: stack =>
      match ofCall f (arguments ++ [level.close operand]) callLine with
      | .error e => ⟨.error e, rest⟩
      | .ok value => parseAfter scope chain stack outer value rest
    | .comma, ⟨.call f callLine arguments, outer⟩ :: stack =>
      parseOperand scope chain
        (⟨.call f callLine (arguments ++ [level.close operand]), outer⟩ :: stack) .empty rest
    | token, frame :: _ =>
      ⟨.error (.expectedToken frame.bracket.expectation (some token) line), rest⟩
    | token, [] => ⟨.ok (level.close operand), ⟨token, line⟩ :: rest⟩

end

/-- The chain at the start of the lexemes. -/
def parse (scope : Scope) (chain : Chain) (lexemes : List Lexeme) : Parsed Expr :=
  parseOperand scope chain [] .empty lexemes

mutual

theorem rest_parseOperand_suffix (scope : Scope) (chain : Chain) (stack : List Frame)
    (level : Level) (lexemes : List Lexeme) :
    (parseOperand scope chain stack level lexemes).rest <:+ lexemes := by
  unfold parseOperand
  split
  · exact List.suffix_rfl
  · exact (rest_parseAfter_suffix ..).trans (List.suffix_cons ..)
  · exact (rest_parseOperand_suffix ..).trans (List.suffix_cons ..)
  · split
    · exact (List.suffix_cons ..).trans (List.suffix_cons ..)
    · exact ((rest_parseOperand_suffix ..).trans (List.suffix_cons ..)).trans (List.suffix_cons ..)
  · split
    · exact List.suffix_cons ..
    · exact (rest_parseAfter_suffix ..).trans (List.suffix_cons ..)
  · exact List.suffix_cons ..
termination_by lexemes.length

theorem rest_parseAfter_suffix (scope : Scope) (chain : Chain) (stack : List Frame)
    (level : Level) (operand : Expr) (lexemes : List Lexeme) :
    (parseAfter scope chain stack level operand lexemes).rest <:+ lexemes := by
  unfold parseAfter
  split
  · split <;> exact List.suffix_rfl
  · split
    · split
      · exact (rest_parseOperand_suffix ..).trans (List.suffix_cons ..)
      · exact List.suffix_rfl
    · exact (rest_parseAfter_suffix ..).trans (List.suffix_cons ..)
    · split
      · exact List.suffix_cons ..
      · exact (rest_parseAfter_suffix ..).trans (List.suffix_cons ..)
    · exact (rest_parseOperand_suffix ..).trans (List.suffix_cons ..)
    · exact List.suffix_cons ..
    · exact List.suffix_rfl
termination_by lexemes.length

end

theorem rest_parse_suffix (scope : Scope) (chain : Chain) (lexemes : List Lexeme) :
    (parse scope chain lexemes).rest <:+ lexemes :=
  rest_parseOperand_suffix ..

end Expr

end IndicatorFormula
