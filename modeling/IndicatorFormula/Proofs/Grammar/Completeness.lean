import IndicatorFormula.Proofs.Grammar.Soundness

/-!
What is derived is read. What is read behind a factor, with the factor as operand, is read from the
factor on; behind a term or a sum it has to be read with every level that closes to its tree, and
behind arguments with every frame that has collected all of them but the last. Together with
soundness this makes reading exact (`parse_eq_ok_iff_derived`).
-/

namespace IndicatorFormula.Grammar

open IndicatorFormula.Expr (Pending Level Frame)

theorem BeginsCall.append {w rest : List Lexeme} (h : BeginsCall w rest) (v : List Lexeme) :
    BeginsCall (v ++ w) rest := by
  obtain ⟨⟨w', name, line, rfl⟩, hrest⟩ := h
  exact ⟨⟨v ++ w', name, line, (List.append_assoc ..).symm⟩, hrest⟩

theorem not_beginsCall_cons {w rest : List Lexeme} {lexeme : Lexeme}
    (h : lexeme.token ≠ .leftParen) : ¬BeginsCall w (lexeme :: rest) := by
  rintro ⟨-, line, hmem⟩
  cases hmem
  exact h rfl

theorem leftParen_not_mem_head? {name : String} {line : Nat} {rest : List Lexeme}
    (hcall : ¬BeginsCall [⟨.identifier name, line⟩] rest) (openLine : Nat) :
    ⟨.leftParen, openLine⟩ ∉ rest.head? :=
  fun hmem => hcall ⟨⟨[], name, line, rfl⟩, openLine, hmem⟩

mutual

theorem IsFactor.reads {scope : Scope} {chain : Chain} {stack : List Frame} {level : Level}
    {w rest : List Lexeme} {e : Expr} {p : Parsed Expr} :
    IsFactor scope w e → ¬BeginsCall w rest → Reads scope chain stack (.behind level e) rest p →
      Reads scope chain stack (.due level) (w ++ rest) p
  | .number .., _, h => .number h
  | .input _ hname, hcall, h => .name (leftParen_not_mem_head? hcall) (ofName?_input hname) h
  | .symbol _ hname hscope, hcall, h =>
    .name (leftParen_not_mem_head? hcall) (ofName?_symbol hname hscope) h
  | .group _ _ hsum, _, h => by
    rw [List.append_assoc]
    refine .openGroup (hsum.reads rfl (not_beginsCall_cons fun htoken => nomatch htoken) ?_)
    rintro inner operand rfl
    exact .closeGroup h
  | .call _ _ _ hargs hes, _, h => by
    rw [List.append_assoc]
    refine .openCall (hargs.reads (not_beginsCall_cons fun htoken => nomatch htoken) ?_)
    rintro init inner operand rfl
    exact .closeCall hes h

theorem IsTerm.reads {scope : Scope} {chain : Chain} {stack : List Frame} {sum : Option Pending}
    {w rest : List Lexeme} {e : Expr} {p : Parsed Expr} :
    IsTerm scope w e → ¬BeginsCall w rest →
      (∀ product operand, Pending.close product operand = e →
        Reads scope chain stack (.behind ⟨sum, product⟩ operand) rest p) →
      Reads scope chain stack (.due ⟨sum, none⟩) (w ++ rest) p
  | .factor hw, hcall, h => hw.reads hcall (h none _ rfl)
  | @IsTerm.chain _ v w _ _ op line hl hop hr, hcall, h => by
    rw [List.append_assoc]
    refine hl.reads (not_beginsCall_cons fun htoken => nomatch htoken) ?_
    rintro product operand rfl
    have hmem : op ∈ operators (innermost chain stack) := by
      rcases hop with rfl | rfl <;> cases innermost chain stack <;> decide
    refine .operator hmem ?_
    rw [Level.push_mul line hop]
    exact hr.reads (fun hbegins => hcall ((hbegins.append [_]).append v)) (h (some _) _ rfl)

theorem IsSum.reads {scope : Scope} {chain : Chain} {stack : List Frame} {w rest : List Lexeme}
    {e : Expr} {p : Parsed Expr} :
    IsSum scope w e → innermost chain stack = .sum → ¬BeginsCall w rest →
      (∀ level operand, Level.close level operand = e →
        Reads scope chain stack (.behind level operand) rest p) →
      Reads scope chain stack (.due .empty) (w ++ rest) p
  | .term hw, _, hcall, h => hw.reads hcall fun product operand => h ⟨none, product⟩ operand
  | @IsSum.chain _ v w _ _ op line hl hop hr, hsum, hcall, h => by
    rw [List.append_assoc]
    refine hl.reads hsum (not_beginsCall_cons fun htoken => nomatch htoken) ?_
    rintro level operand rfl
    refine .operator (hsum ▸ mem_operators_sum op) ?_
    rw [Level.push_add line hop]
    refine hr.reads (fun hbegins => hcall ((hbegins.append [_]).append v)) ?_
    rintro product operand' rfl
    exact h ⟨some _, product⟩ operand' rfl

theorem AreArguments.reads {scope : Scope} {chain : Chain} {stack : List Frame} {f : Builtin}
    {line : Nat} {outer : Level} {w rest : List Lexeme} {es : List Expr} {p : Parsed Expr} :
    AreArguments scope w es → ¬BeginsCall w rest →
      (∀ init level operand, init ++ [Level.close level operand] = es →
        Reads scope chain (⟨.call f line init, outer⟩ :: stack) (.behind level operand) rest p) →
      Reads scope chain (⟨.call f line [], outer⟩ :: stack) (.due .empty) (w ++ rest) p
  | .single hw, hcall, h => by
    refine hw.reads rfl hcall ?_
    rintro level operand rfl
    exact h [] level operand rfl
  | .more (v := v) _ hes hw, hcall, h => by
    rw [List.append_assoc]
    refine hes.reads (not_beginsCall_cons fun htoken => nomatch htoken) ?_
    rintro init level operand rfl
    refine .comma (hw.reads rfl (fun hbegins => hcall ((hbegins.append [_]).append v)) ?_)
    rintro level' operand' rfl
    exact h _ level' operand' rfl

end

theorem parse_of_isChain {scope : Scope} (chain : Chain) {w rest : List Lexeme} {e : Expr}
    (h : IsChain scope chain w e) (hstops : Stops chain w rest) :
    Expr.parse scope chain (w ++ rest) = ⟨.ok e, rest⟩ := by
  obtain ⟨hop, hcall⟩ := hstops
  refine parse_of_reads ?_
  cases chain with
  | term =>
    refine IsTerm.reads h hcall ?_
    rintro product operand rfl
    exact .finish hop
  | sum =>
    refine IsSum.reads h rfl hcall ?_
    rintro level operand rfl
    exact .finish hop

end IndicatorFormula.Grammar
