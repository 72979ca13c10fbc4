import IndicatorFormula.Proofs.Grammar.Completeness

/-!
Reading accepts exactly what the grammar derives, for chains and for statements
(`parse_eq_ok_iff_derived`): a phrase is read when it is derived and nothing behind it could
continue it.
-/

namespace IndicatorFormula.Grammar

variable {scope : Scope} {v w lexemes rest : List Lexeme} {e : Expr} {s : Statement}

theorem IsSum.ne_nil (h : IsSum scope w e) : w ≠ [] := by
  rintro rfl
  have hstops : Stops .sum [] [] := by
    refine ⟨fun op _ line hmem => ?_, ?_⟩
    · cases hmem
    · rintro ⟨-, line, hmem⟩
      cases hmem
  have hread := parse_of_isChain .sum h hstops
  cases hread

/-- A token that is no name parts what ends in a name from what stands before it. -/
theorem BeginsCall.of_append {lexeme : Lexeme} (htoken : ∀ name, lexeme.token ≠ .identifier name)
    (h : BeginsCall (v ++ lexeme :: w) rest) : BeginsCall w rest := by
  obtain ⟨⟨v', name, line, hv'⟩, hrest⟩ := h
  rcases List.eq_nil_or_concat w with rfl | ⟨w', last, rfl⟩
  · obtain ⟨-, hlast⟩ := List.append_inj' hv' rfl
    exact (htoken name (congrArg Lexeme.token (List.cons.inj hlast).1)).elim
  · rw [List.concat_eq_append, ← List.cons_append, ← List.append_assoc] at hv'
    obtain ⟨-, hlast⟩ := List.append_inj' hv' rfl
    rw [List.concat_eq_append, hlast]
    exact ⟨⟨w', name, line, rfl⟩, hrest⟩

theorem parsed_of_map {p : Parsed Expr} {f : Expr → Statement}
    (h : (⟨p.result.map f, p.rest⟩ : Parsed Statement) = ⟨.ok s, rest⟩) :
    ∃ e, p = ⟨.ok e, rest⟩ ∧ f e = s := by
  obtain ⟨result, tail⟩ := p
  cases result with
  | error error => cases h
  | ok e =>
    cases h
    exact ⟨e, rfl, rfl⟩

theorem statement_of_parse (h : Statement.parse scope lexemes = ⟨.ok s, rest⟩) :
    ∃ w, lexemes = w ++ rest ∧ IsStatement scope w s ∧ Stops .sum w rest ∧
      ¬BeginsAssignment w rest := by
  have hreads := readsStatement_parse scope lexemes
  generalize Statement.parse scope lexemes = p at h hreads
  cases hreads with
  | reserved hname => cases h
  | @assign name mark line markLine tail p hname hread =>
    obtain ⟨e, rfl, rfl⟩ := parsed_of_map h
    obtain ⟨w, rfl, hsum, hop, hcall⟩ := completes_of_parse (parse_of_reads hread)
    refine ⟨_ :: _ :: w, rfl, .assign mark line markLine hname hsum,
      ⟨hop, fun hbegins => hcall ?_⟩, ?_⟩
    · have hmark :
          BeginsCall ([⟨.identifier name, line⟩] ++ ⟨.assign mark, markLine⟩ :: w) rest := hbegins
      refine hmark.of_append fun name' htoken => ?_
      cases htoken
    · rintro ⟨⟨name', line', hsingle⟩, -⟩
      cases hsingle
  | bare hassign hread =>
    obtain ⟨e, rfl, rfl⟩ := parsed_of_map h
    obtain ⟨w, rfl, hsum, hstops⟩ := completes_of_parse (parse_of_reads hread)
    obtain ⟨first, w, rfl⟩ := List.exists_cons_of_ne_nil hsum.ne_nil
    refine ⟨_, rfl, .bare hsum, hstops, ?_⟩
    rintro ⟨⟨name, line, hsingle⟩, mark, markLine, hmem⟩
    obtain ⟨tail, rfl⟩ := List.head?_eq_some_iff.1 hmem
    rw [hsingle] at hassign
    exact hassign ⟨_, _, _, _, _, rfl⟩

theorem parse_of_isStatement (h : IsStatement scope w s) (hstops : Stops .sum w rest)
    (hassign : ¬BeginsAssignment w rest) :
    Statement.parse scope (w ++ rest) = ⟨.ok s, rest⟩ := by
  cases h with
  | @assign name w e mark line markLine hname hsum =>
    have hread := parse_of_isChain .sum hsum
      ⟨hstops.1, fun hcall => hstops.2 (hcall.append [_, _])⟩
    exact (ReadsStatement.assign hname (reads_iff.2 hread)).eq
  | @bare first w e hsum =>
    refine (ReadsStatement.bare ?_ (reads_iff.2 (parse_of_isChain .sum hsum hstops))).eq
    -- an assignment mark is either inside the expression or behind a lone name
    rintro ⟨name, line, mark, markLine, tail, heq⟩
    cases w with
    | nil =>
      obtain ⟨rfl, rfl⟩ := List.cons.inj heq
      exact hassign ⟨⟨name, line, rfl⟩, mark, markLine, rfl⟩
    | cons second w =>
      obtain ⟨-, heq⟩ := List.cons.inj heq
      obtain ⟨rfl, -⟩ := List.cons.inj heq
      exact hsum.isExpressionToken _ (List.mem_cons_of_mem _ (List.mem_cons_self ..))

theorem parse_eq_ok_iff_derived (scope : Scope) (lexemes rest : List Lexeme) :
    (∀ chain e, Expr.parse scope chain lexemes = ⟨.ok e, rest⟩ ↔
      ∃ w, lexemes = w ++ rest ∧ IsChain scope chain w e ∧ Stops chain w rest) ∧
    ∀ s, Statement.parse scope lexemes = ⟨.ok s, rest⟩ ↔
      ∃ w, lexemes = w ++ rest ∧ IsStatement scope w s ∧ Stops .sum w rest ∧
        ¬BeginsAssignment w rest := by
  refine ⟨fun chain e => ⟨completes_of_parse, ?_⟩, fun s => ⟨statement_of_parse, ?_⟩⟩
  · rintro ⟨w, rfl, hchain, hstops⟩
    exact parse_of_isChain chain hchain hstops
  · rintro ⟨w, rfl, hstatement, hstops, hassign⟩
    exact parse_of_isStatement hstatement hstops hassign

end IndicatorFormula.Grammar
