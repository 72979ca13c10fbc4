import IndicatorFormula.Proofs.Grammar

/-!
What a derivation takes from its scope: for the names among its lexemes, that they are there. It is
a derivation in every scope that has as many of these names (`IsStatement.inScope`).
-/

namespace IndicatorFormula

def Mentions (lexemes : List Lexeme) (name : String) : Prop :=
  ∃ line, ⟨.identifier name, line⟩ ∈ lexemes

theorem Mentions.mono {v w : List Lexeme} {name : String} (h : Mentions v name) (hsub : v ⊆ w) :
    Mentions w name := by
  obtain ⟨line, hmem⟩ := h
  exact ⟨line, hsub hmem⟩

namespace Grammar

/-- A scope has all names of another that are mentioned. -/
def Covers (scope scope' : Scope) (w : List Lexeme) : Prop :=
  ∀ name, Mentions w name → name ∈ scope'.names → name ∈ scope.names

variable {scope scope' : Scope} {lexeme : Lexeme} {v w : List Lexeme}

theorem Covers.mono (h : Covers scope scope' w) (hsub : v ⊆ w) : Covers scope scope' v :=
  fun name hname => h name (hname.mono hsub)

theorem Covers.left (h : Covers scope scope' (v ++ w)) : Covers scope scope' v :=
  h.mono (List.subset_append_left v w)

theorem Covers.right (h : Covers scope scope' (v ++ w)) : Covers scope scope' w :=
  h.mono (List.subset_append_right v w)

theorem Covers.tail (h : Covers scope scope' (lexeme :: w)) : Covers scope scope' w :=
  h.mono (List.subset_cons_self lexeme w)

mutual

theorem IsFactor.inScope {w : List Lexeme} {e : Expr} :
    IsFactor scope' w e → Covers scope scope' w → IsFactor scope w e
  | .number text line, _ => .number text line
  | .input line hname, _ => .input line hname
  | .symbol line hname hscope, hcovers =>
    .symbol line hname (hcovers _ ⟨line, List.mem_cons_self ..⟩ hscope)
  | .group openLine closeLine h, hcovers =>
    .group openLine closeLine (h.inScope hcovers.left.tail)
  | .call line openLine closeLine h hes, hcovers =>
    .call line openLine closeLine (h.inScope hcovers.left.tail.tail) hes

theorem IsTerm.inScope {w : List Lexeme} {e : Expr} :
    IsTerm scope' w e → Covers scope scope' w → IsTerm scope w e
  | .factor h, hcovers => .factor (h.inScope hcovers)
  | .chain line hl hop hr, hcovers =>
    .chain line (hl.inScope hcovers.left) hop (hr.inScope hcovers.right.tail)

theorem IsSum.inScope {w : List Lexeme} {e : Expr} :
    IsSum scope' w e → Covers scope scope' w → IsSum scope w e
  | .term h, hcovers => .term (h.inScope hcovers)
  | .chain line hl hop hr, hcovers =>
    .chain line (hl.inScope hcovers.left) hop (hr.inScope hcovers.right.tail)

theorem AreArguments.inScope {w : List Lexeme} {es : List Expr} :
    AreArguments scope' w es → Covers scope scope' w → AreArguments scope w es
  | .single h, hcovers => .single (h.inScope hcovers)
  | .more line hes h, hcovers =>
    .more line (hes.inScope hcovers.left) (h.inScope hcovers.right.tail)

end

theorem IsStatement.inScope {s : Statement} (h : IsStatement scope' w s)
    (hcovers : Covers scope scope' w) : IsStatement scope w s := by
  cases h with
  | assign mark line markLine hname hsum =>
    exact .assign mark line markLine hname (hsum.inScope hcovers.tail.tail)
  | bare hsum => exact .bare (hsum.inScope hcovers)

end Grammar

end IndicatorFormula
