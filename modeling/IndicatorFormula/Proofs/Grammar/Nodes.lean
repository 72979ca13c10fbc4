import IndicatorFormula.Proofs.Evaluation.Pointwise
import IndicatorFormula.Proofs.Grammar.Exactness

/-!
The nodes of the trees that are read. What every rule of the grammar grants the node it adds holds
of all nodes of a derived tree (`IsStatement.everywhere`). So every node is one that the grammar has
at its place: its names are resolved, its calls checked, and its numbers stand among the lexemes
(`areNodes_of_parse`).
-/

namespace IndicatorFormula

namespace Expr

/-- The nodes of a tree, those that are never evaluated among them. -/
inductive Contains : Expr → Expr → Prop
  | self {e : Expr} : Contains e e
  | left {op : Operator} {left right node : Expr} {line : Nat} :
    Contains left node → Contains (binary op left right line) node
  | right {op : Operator} {left right node : Expr} {line : Nat} :
    Contains right node → Contains (binary op left right line) node
  | argument {f : Builtin} {arguments : List Expr} {argument node : Expr} {line : Nat} :
    argument ∈ arguments → Contains argument node → Contains (call f arguments line) node

theorem Visits.contains {e node : Expr} (h : e.Visits node) : e.Contains node := by
  induction h with
  | self => exact .self
  | left _ ih => exact .left ih
  | right _ ih => exact .right ih
  | argument _ ih => exact .argument (List.mem_cons_self ..) ih

theorem Contains.trans {e node below : Expr} (h : e.Contains node) (hbelow : node.Contains below) :
    e.Contains below := by
  induction h with
  | self => exact hbelow
  | left _ ih => exact .left (ih hbelow)
  | right _ ih => exact .right (ih hbelow)
  | argument hmem _ ih => exact .argument hmem (ih hbelow)

end Expr

namespace Grammar

/-- What a node of a tree can be that is read from the lexemes `w`. -/
inductive IsNode (scope : Scope) (w : List Lexeme) : Expr → Prop
  | number {text : String} {line : Nat} (h : ⟨.number text, line⟩ ∈ w) :
    IsNode scope w (.number text line)
  | input {name : String} (line : Nat) (hname : isReserved name = true) :
    IsNode scope w (.input name line)
  | symbol {name : String} (line : Nat) (hname : isReserved name = false)
    (hscope : name ∈ scope.names) : IsNode scope w (.symbol name line)
  | binary (op : Operator) (left right : Expr) (line : Nat) :
    IsNode scope w (.binary op left right line)
  | call {f : Builtin} {es : List Expr} (line : Nat) (hes : Admits f es) :
    IsNode scope w (.call f es line)

variable {scope : Scope} {v w lexemes rest : List Lexeme} {e node : Expr}

theorem IsNode.mono (h : IsNode scope v node) (hsub : v ⊆ w) : IsNode scope w node := by
  cases h with
  | number h => exact .number (hsub h)
  | input line hname => exact .input line hname
  | symbol line hname hscope => exact .symbol line hname hscope
  | binary op left right line => exact .binary op left right line
  | call line hes => exact .call line hes

/-- A property of nodes among lexemes that every rule of the grammar grants the node it adds. -/
structure Granted (scope : Scope) (P : List Lexeme → Expr → Prop) : Prop where
  mono {v w : List Lexeme} {node : Expr} (hsub : v ⊆ w) (h : P v node) : P w node
  number {w : List Lexeme} {text : String} {line : Nat} (h : ⟨.number text, line⟩ ∈ w) :
    P w (.number text line)
  input {w : List Lexeme} {name : String} {line : Nat} (h : ⟨.identifier name, line⟩ ∈ w)
    (hname : isReserved name = true) : P w (.input name line)
  symbol {w : List Lexeme} {name : String} {line : Nat} (h : ⟨.identifier name, line⟩ ∈ w)
    (hname : isReserved name = false) (hscope : name ∈ scope.names) : P w (.symbol name line)
  binary {w : List Lexeme} {op : Operator} {l r : Expr} {line : Nat}
    (h : ⟨.operator op, line⟩ ∈ w) : P w (.binary op l r line)
  call {w : List Lexeme} {f : Builtin} {es : List Expr} {line : Nat}
    (h : ⟨.identifier f.name, line⟩ ∈ w) (hes : Admits f es) : P w (.call f es line)

def Everywhere (P : List Lexeme → Expr → Prop) (w : List Lexeme) (e : Expr) : Prop :=
  ∀ node, e.Contains node → P w node

section Everywhere

variable {P : List Lexeme → Expr → Prop} (hP : Granted scope P)

include hP

theorem Everywhere.mono (h : Everywhere P v e) (hsub : v ⊆ w) : Everywhere P w e :=
  fun node hnode => hP.mono hsub (h node hnode)

theorem Everywhere.left (h : Everywhere P v e) : Everywhere P (v ++ w) e :=
  h.mono hP (List.subset_append_left v w)

theorem Everywhere.right (h : Everywhere P w e) : Everywhere P (v ++ w) e :=
  h.mono hP (List.subset_append_right v w)

theorem Everywhere.tail {lexeme : Lexeme} (h : Everywhere P w e) :
    Everywhere P (lexeme :: w) e :=
  h.mono hP (List.subset_cons_self lexeme w)

theorem everywhere_binary {op : Operator} {l r : Expr} {line : Nat} (hl : Everywhere P v l)
    (hr : Everywhere P w r) :
    Everywhere P (v ++ ⟨.operator op, line⟩ :: w) (.binary op l r line) := by
  intro node hnode
  cases hnode with
  | self => exact hP.binary (List.mem_append_right v (List.mem_cons_self ..))
  | left hnode => exact hl.left hP node hnode
  | right hnode => exact (hr.tail hP).right hP node hnode

theorem everywhere_call {f : Builtin} {es : List Expr} {line : Nat}
    (h : ∀ e ∈ es, Everywhere P w e) (hes : Admits f es) :
    Everywhere P (⟨.identifier f.name, line⟩ :: w) (.call f es line) := by
  intro node hnode
  cases hnode with
  | self => exact hP.call (List.mem_cons_self ..) hes
  | argument hmem hnode => exact (h _ hmem).tail hP node hnode

mutual

theorem IsFactor.everywhere :
    ∀ {w : List Lexeme} {e : Expr}, IsFactor scope w e → Everywhere P w e
  | _, _, .number text line => fun _ hnode => by
    cases hnode
    exact hP.number (List.mem_cons_self ..)
  | _, _, .input line hname => fun _ hnode => by
    cases hnode
    exact hP.input (List.mem_cons_self ..) hname
  | _, _, .symbol line hname hscope => fun _ hnode => by
    cases hnode
    exact hP.symbol (List.mem_cons_self ..) hname hscope
  | _, _, .group _ _ h => (h.everywhere.tail hP).left hP
  | _, _, .call _ _ _ h hes =>
    everywhere_call hP (fun e he => ((h.everywhere e he).tail hP).left hP) hes

theorem IsTerm.everywhere : ∀ {w : List Lexeme} {e : Expr}, IsTerm scope w e → Everywhere P w e
  | _, _, .factor h => h.everywhere
  | _, _, .chain _ hl _ hr => everywhere_binary hP hl.everywhere hr.everywhere

theorem IsSum.everywhere : ∀ {w : List Lexeme} {e : Expr}, IsSum scope w e → Everywhere P w e
  | _, _, .term h => h.everywhere
  | _, _, .chain _ hl _ hr => everywhere_binary hP hl.everywhere hr.everywhere

theorem AreArguments.everywhere : ∀ {w : List Lexeme} {es : List Expr},
    AreArguments scope w es → ∀ e ∈ es, Everywhere P w e
  | _, _, .single h => List.forall_mem_singleton.2 h.everywhere
  | _, _, .more _ hes h => List.forall_mem_append.2
    ⟨fun e he => (hes.everywhere e he).left hP,
      List.forall_mem_singleton.2 ((h.everywhere.tail hP).right hP)⟩

end

theorem IsStatement.everywhere {s : Statement} (h : IsStatement scope w s) :
    Everywhere P w s.value := by
  cases h with
  | assign mark line markLine hname hsum => exact ((hsum.everywhere hP).tail hP).tail hP
  | bare hsum => exact hsum.everywhere hP

end Everywhere

theorem granted_isNode (scope : Scope) : Granted scope (IsNode scope) where
  mono hsub h := h.mono hsub
  number h := .number h
  input _ hname := .input _ hname
  symbol _ hname hscope := .symbol _ hname hscope
  binary _ := .binary ..
  call _ hes := .call _ hes

theorem areNodes_of_parse {s : Statement} (h : Statement.parse scope lexemes = ⟨.ok s, rest⟩) :
    Everywhere (IsNode scope) lexemes s.value := by
  obtain ⟨w, rfl, hstatement, -, -⟩ := statement_of_parse h
  exact (hstatement.everywhere (granted_isNode scope)).left (granted_isNode scope)

end Grammar

end IndicatorFormula
