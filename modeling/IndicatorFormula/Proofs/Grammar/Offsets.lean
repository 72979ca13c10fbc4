import IndicatorFormula.Proofs.Grammar.Exactness
import IndicatorFormula.Proofs.Token.Numbers

/-!
A formula cannot look ahead: where the numbers of a text have no sign, no call that is read from it
has a period or an offset below zero.
-/

namespace IndicatorFormula

/-- No call that is evaluated has a period or an offset below zero. -/
def Expr.LooksBack : Expr → Prop
  | number .. | input .. | symbol .. => True
  | binary _ left right _ => left.LooksBack ∧ right.LooksBack
  | call _ arguments _ =>
    match arguments with
    | [argument, period] => argument.LooksBack ∧ ∀ n, period.integerLiteral? = some n → 0 ≤ n
    | _ => True

namespace Grammar

def Unsigned (w : List Lexeme) : Prop :=
  ∀ text line, ⟨.number text, line⟩ ∈ w → Token.IsNumberText text

theorem Unsigned.left {v w : List Lexeme} (h : Unsigned (v ++ w)) : Unsigned v :=
  fun text line hmem => h text line (List.mem_append_left _ hmem)

theorem Unsigned.right {v w : List Lexeme} (h : Unsigned (v ++ w)) : Unsigned w :=
  fun text line hmem => h text line (List.mem_append_right _ hmem)

theorem Unsigned.tail {lexeme : Lexeme} {w : List Lexeme} (h : Unsigned (lexeme :: w)) :
    Unsigned w :=
  fun text line hmem => h text line (List.mem_cons_of_mem _ hmem)

/-- Fit to be the series of a call and to be its period. -/
def IsUnsigned (e : Expr) : Prop :=
  e.LooksBack ∧ ∀ n, e.integerLiteral? = some n → 0 ≤ n

theorem isUnsigned_call {f : Builtin} {es : List Expr} {line : Nat}
    (h : ∀ e ∈ es, IsUnsigned e) : IsUnsigned (.call f es line) := by
  refine ⟨?_, fun n hn => nomatch hn⟩
  rw [Expr.LooksBack.eq_def]
  dsimp only
  split
  · next argument period =>
    exact ⟨(h _ (List.mem_cons_self ..)).1,
      (h _ (List.mem_cons_of_mem _ (List.mem_cons_self ..))).2⟩
  · trivial

mutual

theorem IsFactor.isUnsigned {scope : Scope} {w : List Lexeme} {e : Expr} :
    IsFactor scope w e → Unsigned w → IsUnsigned e
  | .number text line, hw =>
    ⟨trivial, fun _ hn => (hw text line (List.mem_cons_self ..)).readWord?_nonneg hn⟩
  | .input .., _ | .symbol .., _ => ⟨trivial, fun _ hn => nomatch hn⟩
  | .group _ _ h, hw => h.isUnsigned hw.left.tail
  | .call _ _ _ h _, hw => isUnsigned_call (h.areUnsigned hw.left.tail.tail)

theorem IsTerm.isUnsigned {scope : Scope} {w : List Lexeme} {e : Expr} :
    IsTerm scope w e → Unsigned w → IsUnsigned e
  | .factor h, hw => h.isUnsigned hw
  | .chain _ hl _ hr, hw =>
    ⟨⟨(hl.isUnsigned hw.left).1, (hr.isUnsigned hw.right.tail).1⟩, fun _ hn => nomatch hn⟩

theorem IsSum.isUnsigned {scope : Scope} {w : List Lexeme} {e : Expr} :
    IsSum scope w e → Unsigned w → IsUnsigned e
  | .term h, hw => h.isUnsigned hw
  | .chain _ hl _ hr, hw =>
    ⟨⟨(hl.isUnsigned hw.left).1, (hr.isUnsigned hw.right.tail).1⟩, fun _ hn => nomatch hn⟩

theorem AreArguments.areUnsigned {scope : Scope} {w : List Lexeme} {es : List Expr} :
    AreArguments scope w es → Unsigned w → ∀ e ∈ es, IsUnsigned e
  | .single h, hw => List.forall_mem_singleton.2 (h.isUnsigned hw)
  | .more _ hes h, hw => List.forall_mem_append.2
    ⟨hes.areUnsigned hw.left, List.forall_mem_singleton.2 (h.isUnsigned hw.right.tail)⟩

end

end Grammar

end IndicatorFormula
