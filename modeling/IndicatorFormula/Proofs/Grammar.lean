import IndicatorFormula.Statement.Parse

/-!
The grammar of formulas as derivations: which lexemes make up a factor, a term, a sum or a
statement, and the tree that belongs to them. A term is a chain of factors and a sum a chain of
terms, both grouped to the left. Names are resolved and calls checked where they are derived.

`Stops` and `BeginsAssignment` speak of the lexemes behind a derived phrase: they say when reading
cannot go on past its end.
-/

namespace IndicatorFormula.Grammar

/-- The arguments a function takes, by the tree of each. -/
def Admits (function : Builtin) (arguments : List Expr) : Prop :=
  function.isImplemented → ∃ series text line n, arguments = [series, .number text line] ∧
    Decimal.readWord? text = some n ∧ (function.needsPositivePeriod → 0 < n)

mutual

inductive IsFactor (scope : Scope) : List Lexeme → Expr → Prop
  | number (text : String) (line : Nat) :
    IsFactor scope [⟨.number text, line⟩] (.number text line)
  | input {name : String} (line : Nat) (hname : isReserved name = true) :
    IsFactor scope [⟨.identifier name, line⟩] (.input name line)
  | symbol {name : String} (line : Nat) (hname : isReserved name = false)
    (hscope : name ∈ scope.names) :
    IsFactor scope [⟨.identifier name, line⟩] (.symbol name line)
  | group {w : List Lexeme} {e : Expr} (openLine closeLine : Nat) (h : IsSum scope w e) :
    IsFactor scope (⟨.leftParen, openLine⟩ :: w ++ [⟨.rightParen, closeLine⟩]) e
  | call {f : Builtin} {w : List Lexeme} {es : List Expr} (line openLine closeLine : Nat)
    (h : AreArguments scope w es) (hes : Admits f es) :
    IsFactor scope
      (⟨.identifier f.name, line⟩ :: ⟨.leftParen, openLine⟩ :: w ++ [⟨.rightParen, closeLine⟩])
      (.call f es line)

inductive IsTerm (scope : Scope) : List Lexeme → Expr → Prop
  | factor {w : List Lexeme} {e : Expr} (h : IsFactor scope w e) : IsTerm scope w e
  | chain {v w : List Lexeme} {l r : Expr} {op : Operator} (line : Nat) (hl : IsTerm scope v l)
    (hop : op = .mul ∨ op = .div) (hr : IsFactor scope w r) :
    IsTerm scope (v ++ ⟨.operator op, line⟩ :: w) (.binary op l r line)

inductive IsSum (scope : Scope) : List Lexeme → Expr → Prop
  | term {w : List Lexeme} {e : Expr} (h : IsTerm scope w e) : IsSum scope w e
  | chain {v w : List Lexeme} {l r : Expr} {op : Operator} (line : Nat) (hl : IsSum scope v l)
    (hop : op = .add ∨ op = .sub) (hr : IsTerm scope w r) :
    IsSum scope (v ++ ⟨.operator op, line⟩ :: w) (.binary op l r line)

inductive AreArguments (scope : Scope) : List Lexeme → List Expr → Prop
  | single {w : List Lexeme} {e : Expr} (h : IsSum scope w e) : AreArguments scope w [e]
  | more {v w : List Lexeme} {es : List Expr} {e : Expr} (line : Nat)
    (hes : AreArguments scope v es) (h : IsSum scope w e) :
    AreArguments scope (v ++ ⟨.comma, line⟩ :: w) (es ++ [e])

end

inductive IsStatement (scope : Scope) : List Lexeme → Statement → Prop
  | assign {name : String} {w : List Lexeme} {e : Expr} (mark : String) (line markLine : Nat)
    (hname : isReserved name = false) (h : IsSum scope w e) :
    IsStatement scope (⟨.identifier name, line⟩ :: ⟨.assign mark, markLine⟩ :: w)
      (.assign name e line)
  | bare {first : Lexeme} {w : List Lexeme} {e : Expr} (h : IsSum scope (first :: w) e) :
    IsStatement scope (first :: w) (.bare e first.line)

def IsChain (scope : Scope) : Chain → List Lexeme → Expr → Prop
  | .term => IsTerm scope
  | .sum => IsSum scope

/-- The operators that continue a chain. -/
def operators : Chain → List Operator
  | .term => [.mul, .div]
  | .sum => [.add, .sub, .mul, .div]

def BeginsCall (w rest : List Lexeme) : Prop :=
  (∃ v name line, w = v ++ [⟨.identifier name, line⟩]) ∧ ∃ line, ⟨.leftParen, line⟩ ∈ rest.head?

/-- Neither an operator nor an opening parenthesis at `rest` belongs to the chain `w`. -/
def Stops (chain : Chain) (w rest : List Lexeme) : Prop :=
  (∀ op ∈ operators chain, ∀ line, ⟨.operator op, line⟩ ∉ rest.head?) ∧ ¬BeginsCall w rest

def BeginsAssignment (w rest : List Lexeme) : Prop :=
  (∃ name line, w = [⟨.identifier name, line⟩]) ∧ ∃ mark line, ⟨.assign mark, line⟩ ∈ rest.head?

/-- The tokens an expression is written with. -/
def IsExpressionToken : Token → Prop
  | .number _ | .identifier _ | .operator _ | .comma | .leftParen | .rightParen => True
  | .comparison _ | .assign _ | .semicolon => False

mutual

theorem IsFactor.isExpressionToken {scope : Scope} {w : List Lexeme} {e : Expr} :
    IsFactor scope w e → ∀ lexeme ∈ w, IsExpressionToken lexeme.token
  | .number .. | .input .. | .symbol .. => List.forall_mem_singleton.2 trivial
  | .group _ _ h => List.forall_mem_append.2
    ⟨List.forall_mem_cons.2 ⟨trivial, h.isExpressionToken⟩, List.forall_mem_singleton.2 trivial⟩
  | .call _ _ _ h _ => List.forall_mem_append.2
    ⟨List.forall_mem_cons.2 ⟨trivial, List.forall_mem_cons.2 ⟨trivial, h.isExpressionToken⟩⟩,
      List.forall_mem_singleton.2 trivial⟩

theorem IsTerm.isExpressionToken {scope : Scope} {w : List Lexeme} {e : Expr} :
    IsTerm scope w e → ∀ lexeme ∈ w, IsExpressionToken lexeme.token
  | .factor h => h.isExpressionToken
  | .chain _ hl _ hr => List.forall_mem_append.2
    ⟨hl.isExpressionToken, List.forall_mem_cons.2 ⟨trivial, hr.isExpressionToken⟩⟩

theorem IsSum.isExpressionToken {scope : Scope} {w : List Lexeme} {e : Expr} :
    IsSum scope w e → ∀ lexeme ∈ w, IsExpressionToken lexeme.token
  | .term h => h.isExpressionToken
  | .chain _ hl _ hr => List.forall_mem_append.2
    ⟨hl.isExpressionToken, List.forall_mem_cons.2 ⟨trivial, hr.isExpressionToken⟩⟩

theorem AreArguments.isExpressionToken {scope : Scope} {w : List Lexeme} {es : List Expr} :
    AreArguments scope w es → ∀ lexeme ∈ w, IsExpressionToken lexeme.token
  | .single h => h.isExpressionToken
  | .more _ hes h => List.forall_mem_append.2
    ⟨hes.isExpressionToken, List.forall_mem_cons.2 ⟨trivial, h.isExpressionToken⟩⟩

end

end IndicatorFormula.Grammar
