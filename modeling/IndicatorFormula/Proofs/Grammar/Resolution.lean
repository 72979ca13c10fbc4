import IndicatorFormula.Proofs.Grammar.Reads

/-!
Reading uses the names of a scope as a set: scopes with the same names, in any order and number,
read the same statements and report the same errors.
-/

namespace IndicatorFormula

def Scope.Agrees (scope scope' : Scope) : Prop :=
  scope.endLine = scope'.endLine ∧ ∀ name, name ∈ scope.names ↔ name ∈ scope'.names

namespace Grammar

open IndicatorFormula.Expr (Frame)

variable {scope scope' : Scope}

theorem ofName?_of_agrees (h : scope.Agrees scope') (name : String) (line : Nat) :
    Expr.ofName? scope name line = Expr.ofName? scope' name line := by
  have hnames : scope.names.contains name = scope'.names.contains name := by
    rw [Bool.eq_iff_iff, List.contains_iff_mem, List.contains_iff_mem]
    exact h.2 name
  rw [Expr.ofName?, Expr.ofName?, hnames]

theorem Reads.of_agrees {chain : Chain} {stack : List Frame} {place : Place}
    {lexemes : List Lexeme} {p : Parsed Expr} (hreads : Reads scope chain stack place lexemes p)
    (h : scope.Agrees scope') : Reads scope' chain stack place lexemes p := by
  induction hreads with
  | nothing =>
    rw [h.1]
    exact .nothing
  | number _ ih => exact .number ih
  | openGroup _ ih => exact .openGroup ih
  | unknownCall hname => exact .unknownCall hname
  | openCall _ ih => exact .openCall ih
  | unknownName hcall hname => exact .unknownName hcall (ofName?_of_agrees h .. ▸ hname)
  | name hcall hname _ ih => exact .name hcall (ofName?_of_agrees h .. ▸ hname) ih
  | unexpected htoken => exact .unexpected htoken
  | finish hop => exact .finish hop
  | unclosed =>
    rw [h.1]
    exact .unclosed
  | operator hop _ ih => exact .operator hop ih
  | closeGroup _ ih => exact .closeGroup ih
  | refusedCall hcheck => exact .refusedCall hcheck
  | closeCall hes _ ih => exact .closeCall hes ih
  | comma _ ih => exact .comma ih
  | refused htoken => exact .refused htoken

theorem ReadsStatement.of_agrees {lexemes : List Lexeme} {p : Parsed Statement}
    (hreads : ReadsStatement scope lexemes p) (h : scope.Agrees scope') :
    ReadsStatement scope' lexemes p := by
  cases hreads with
  | reserved hname => exact .reserved hname
  | assign hname hreads => exact .assign hname (hreads.of_agrees h)
  | bare hassign hreads =>
    rw [h.1]
    exact .bare hassign (hreads.of_agrees h)

theorem ReadsWhole.of_agrees {lexemes : List Lexeme} {p : Parsed Statement}
    (hreads : ReadsWhole scope lexemes p) (h : scope.Agrees scope') :
    ReadsWhole scope' lexemes p := by
  cases hreads with
  | failed hreads => exact .failed (hreads.of_agrees h)
  | ended hreads => exact .ended (hreads.of_agrees h)
  | unended hreads htoken => exact .unended (hreads.of_agrees h) htoken
  | exhausted hreads =>
    rw [h.1]
    exact .exhausted (hreads.of_agrees h)

theorem parseWhole_of_agrees (h : scope.Agrees scope') (lexemes : List Lexeme) :
    Statement.parseWhole scope lexemes = Statement.parseWhole scope' lexemes :=
  ((readsWhole_parseWhole scope lexemes).of_agrees h).eq.symm

end Grammar

end IndicatorFormula
