import IndicatorFormula.Proofs.Grammar.Exactness
import IndicatorFormula.Proofs.Grammar.Reads
import IndicatorFormula.Proofs.Token.Concatenation

/-!
Reading does not look past a semicolon: what is read from lexemes that have one stays the same
with more lexemes behind them, and where the formula ends does not matter (`parseWhole_append`).
-/

namespace IndicatorFormula

def HasSemicolon (lexemes : List Lexeme) : Prop :=
  ∃ lexeme ∈ lexemes, lexeme.token = .semicolon

instance (lexemes : List Lexeme) : Decidable (HasSemicolon lexemes) :=
  inferInstanceAs (Decidable (∃ lexeme ∈ lexemes, lexeme.token = .semicolon))

variable {v w lexemes rest : List Lexeme} {lexeme : Lexeme}

theorem not_hasSemicolon_nil : ¬HasSemicolon [] := by
  rintro ⟨found, hmem, -⟩
  cases hmem

theorem HasSemicolon.tail (h : HasSemicolon (lexeme :: lexemes))
    (htoken : lexeme.token ≠ .semicolon) : HasSemicolon lexemes := by
  obtain ⟨found, hmem, hfound⟩ := h
  rcases List.mem_cons.1 hmem with rfl | hmem
  · exact absurd hfound htoken
  · exact ⟨found, hmem, hfound⟩

theorem HasSemicolon.head?_append (h : HasSemicolon lexemes) (later : List Lexeme) :
    (lexemes ++ later).head? = lexemes.head? := by
  cases lexemes with
  | nil => exact absurd h not_hasSemicolon_nil
  | cons lexeme lexemes => rfl

theorem EndsStatement.hasSemicolon (h : EndsStatement lexemes) (hne : lexemes ≠ []) :
    HasSemicolon lexemes := by
  have hlast := List.getLast?_eq_some_getLast hne
  exact ⟨lexemes.getLast hne, List.getLast_mem hne, h _ hlast⟩

theorem EndsStatement.suffix (h : EndsStatement lexemes) (hsuffix : rest <:+ lexemes) :
    EndsStatement rest := by
  obtain ⟨taken, rfl⟩ := hsuffix
  by_cases hrest : rest = []
  · subst hrest
    exact endsStatement_nil
  · exact (endsStatement_append hrest).1 h

namespace Grammar

open IndicatorFormula.Expr (Level Frame)

variable {scope scope' : Scope} {chain : Chain} {stack : List Frame} {place : Place}

theorem IsStatement.ne_semicolon {s : Statement} (h : IsStatement scope w s) :
    ¬HasSemicolon w := by
  have hexpression {w : List Lexeme} {e : Expr} (hsum : IsSum scope w e) : ¬HasSemicolon w := by
    rintro ⟨lexeme, hmem, htoken⟩
    have := hsum.isExpressionToken lexeme hmem
    rw [htoken] at this
    exact this
  cases h with
  | assign mark line markLine hname hsum =>
    intro h
    exact hexpression hsum ((h.tail fun h => nomatch h).tail fun h => nomatch h)
  | bare hsum => exact hexpression hsum

theorem Reads.append {p : Parsed Expr} (h : Reads scope chain stack place lexemes p)
    (hsemicolon : HasSemicolon lexemes) (hnames : scope'.names = scope.names)
    (later : List Lexeme) :
    Reads scope' chain stack place (lexemes ++ later) ⟨p.result, p.rest ++ later⟩ := by
  have hofName (name : String) (line : Nat) :
      Expr.ofName? scope' name line = Expr.ofName? scope name line := by
    rw [Expr.ofName?, Expr.ofName?, hnames]
  -- no rule looks behind the semicolon, so what is put there changes none
  induction h with
  | nothing | unclosed => exact absurd hsemicolon not_hasSemicolon_nil
  | number h ih => exact .number (ih (hsemicolon.tail fun h => nomatch h))
  | openGroup h ih => exact .openGroup (ih (hsemicolon.tail fun h => nomatch h))
  | unknownCall hname => exact .unknownCall hname
  | openCall h ih =>
    exact .openCall (ih ((hsemicolon.tail fun h => nomatch h).tail fun h => nomatch h))
  | @unknownName stack level name line lexemes hcall hname =>
    have htail : HasSemicolon lexemes := hsemicolon.tail fun h => nomatch h
    rw [← htail.head?_append later] at hcall
    exact .unknownName hcall ((hofName ..).trans hname)
  | @name stack level name line value lexemes p hcall hname h ih =>
    have htail : HasSemicolon lexemes := hsemicolon.tail fun h => nomatch h
    rw [← htail.head?_append later] at hcall
    exact .name hcall ((hofName ..).trans hname) (ih htail)
  | unexpected htoken => exact .unexpected htoken
  | finish hop =>
    refine .finish ?_
    rwa [hsemicolon.head?_append]
  | operator hop h ih => exact .operator hop (ih (hsemicolon.tail fun h => nomatch h))
  | closeGroup h ih => exact .closeGroup (ih (hsemicolon.tail fun h => nomatch h))
  | refusedCall hcheck => exact .refusedCall hcheck
  | closeCall hes h ih => exact .closeCall hes (ih (hsemicolon.tail fun h => nomatch h))
  | comma h ih => exact .comma (ih (hsemicolon.tail fun h => nomatch h))
  | refused htoken => exact .refused htoken

theorem marksAssignment_append (hsemicolon : HasSemicolon lexemes) (later : List Lexeme) :
    MarksAssignment (lexemes ++ later) ↔ MarksAssignment lexemes := by
  constructor
  · rintro ⟨name, line, mark, markLine, rest, heq⟩
    cases lexemes with
    | nil => exact absurd hsemicolon not_hasSemicolon_nil
    | cons first lexemes =>
      obtain ⟨rfl, htaken⟩ := List.cons.inj heq
      have htail := hsemicolon.tail fun h => nomatch h
      cases lexemes with
      | nil => exact absurd htail not_hasSemicolon_nil
      | cons second lexemes =>
        obtain ⟨rfl, -⟩ := List.cons.inj htaken
        exact ⟨_, _, _, _, _, rfl⟩
  · rintro ⟨name, line, mark, markLine, rest, rfl⟩
    exact ⟨_, _, _, _, _, rfl⟩

theorem ReadsStatement.append {p : Parsed Statement} (h : ReadsStatement scope lexemes p)
    (hsemicolon : HasSemicolon lexemes) (hnames : scope'.names = scope.names)
    (later : List Lexeme) :
    ReadsStatement scope' (lexemes ++ later) ⟨p.result, p.rest ++ later⟩ := by
  cases h with
  | reserved hname => exact .reserved hname
  | assign hname h =>
    have htail := (hsemicolon.tail fun h => nomatch h).tail fun h => nomatch h
    exact .assign hname (h.append htail hnames later)
  | bare hassign h =>
    have hline : ((lexemes.head?.map Lexeme.line).getD scope.endLine) =
        (((lexemes ++ later).head?.map Lexeme.line).getD scope'.endLine) := by
      rw [hsemicolon.head?_append]
      cases lexemes with
      | nil => exact absurd hsemicolon not_hasSemicolon_nil
      | cons lexeme lexemes => rfl
    rw [hline]
    exact .bare (fun h => hassign ((marksAssignment_append hsemicolon later).1 h))
      (h.append hsemicolon hnames later)

theorem ReadsWhole.append {p : Parsed Statement} (h : ReadsWhole scope lexemes p)
    (hsemicolon : HasSemicolon lexemes) (hnames : scope'.names = scope.names)
    (later : List Lexeme) :
    ReadsWhole scope' (lexemes ++ later) ⟨p.result, p.rest ++ later⟩ := by
  cases h with
  | failed h => exact .failed (h.append hsemicolon hnames later)
  | ended h => exact .ended (h.append hsemicolon hnames later)
  | unended h htoken => exact .unended (h.append hsemicolon hnames later) htoken
  | exhausted h =>
    -- a statement that took everything would have taken the semicolon
    obtain ⟨w, heq, hstatement, -⟩ := statement_of_parse h.eq
    rw [List.append_nil] at heq
    exact absurd (heq ▸ hsemicolon) hstatement.ne_semicolon

theorem parseWhole_append (hsemicolon : HasSemicolon lexemes) (hnames : scope'.names = scope.names)
    (later : List Lexeme) :
    Statement.parseWhole scope' (lexemes ++ later) =
      ⟨(Statement.parseWhole scope lexemes).result,
        (Statement.parseWhole scope lexemes).rest ++ later⟩ :=
  ((readsWhole_parseWhole scope lexemes).append hsemicolon hnames later).eq

theorem stops_semicolon (w : List Lexeme) (line : Nat) (rest : List Lexeme) :
    Stops .sum w (⟨.semicolon, line⟩ :: rest) ∧
      ¬BeginsAssignment w (⟨.semicolon, line⟩ :: rest) := by
  refine ⟨⟨fun op _ opLine hmem => ?_, ?_⟩, ?_⟩
  · cases hmem
  · rintro ⟨-, parenLine, hmem⟩
    cases hmem
  · rintro ⟨-, mark, markLine, hmem⟩
    cases hmem

/-- A statement is read with its semicolon where the lexemes begin with one of the grammar. -/
theorem parseWhole_eq_ok_iff {s : Statement} : Statement.parseWhole scope lexemes = ⟨.ok s, rest⟩ ↔
    ∃ w line, lexemes = w ++ ⟨.semicolon, line⟩ :: rest ∧ IsStatement scope w s := by
  constructor
  · intro h
    have hwhole := readsWhole_parseWhole scope lexemes
    rw [h] at hwhole
    cases hwhole with
    | ended hstatement =>
      obtain ⟨w, rfl, hw, -⟩ := statement_of_parse hstatement.eq
      exact ⟨w, _, rfl, hw⟩
  · rintro ⟨w, line, rfl, hw⟩
    obtain ⟨hstops, hassign⟩ := stops_semicolon w line rest
    have hstatement := readsStatement_parse scope (w ++ ⟨.semicolon, line⟩ :: rest)
    rw [parse_of_isStatement hw hstops hassign] at hstatement
    exact (ReadsWhole.ended hstatement).eq

theorem parseWhole_of_isStatement {s : Statement} (h : IsStatement scope w s) (line : Nat)
    (rest : List Lexeme) :
    Statement.parseWhole scope (w ++ ⟨.semicolon, line⟩ :: rest) = ⟨.ok s, rest⟩ :=
  parseWhole_eq_ok_iff.2 ⟨w, line, rfl, h⟩

theorem exists_statement_of_parseWhole {s : Statement}
    (h : (Statement.parseWhole scope lexemes).result = .ok s) :
    ∃ w line, lexemes = w ++ ⟨.semicolon, line⟩ :: (Statement.parseWhole scope lexemes).rest ∧
      IsStatement scope w s := by
  refine parseWhole_eq_ok_iff.1 ?_
  rw [← h]

/-- Where the last semicolon is the only one, the statement is all that stands before it. -/
theorem isStatement_of_parseWhole {s : Statement} {line : Nat} (hw : ¬HasSemicolon w)
    (h : (Statement.parseWhole scope (w ++ [⟨.semicolon, line⟩])).result = .ok s) :
    IsStatement scope w s := by
  obtain ⟨taken, semicolonLine, heq, htaken⟩ := exists_statement_of_parseWhole h
  generalize (Statement.parseWhole scope (w ++ [⟨.semicolon, line⟩])).rest = rest at heq
  rcases List.eq_nil_or_concat rest with rfl | ⟨left, last, rfl⟩
  · obtain ⟨rfl, -⟩ := List.append_inj' heq rfl
    exact htaken
  · -- were anything left, the semicolon that was taken would stand before the last one
    rw [List.concat_eq_append, ← List.cons_append, ← List.append_assoc] at heq
    obtain rfl := List.append_inj_left' heq rfl
    exact absurd ⟨_, List.mem_append_right taken (List.mem_cons_self ..), rfl⟩ hw

theorem rest_eq_nil_of_parseWhole {s : Statement} {line : Nat} (hw : ¬HasSemicolon w)
    (h : (Statement.parseWhole scope (w ++ [⟨.semicolon, line⟩])).result = .ok s) :
    (Statement.parseWhole scope (w ++ [⟨.semicolon, line⟩])).rest = [] :=
  congrArg Parsed.rest (parseWhole_of_isStatement (isStatement_of_parseWhole hw h) line [])

theorem endsStatement_of_parseWhole {s : Statement}
    (h : (Statement.parseWhole scope lexemes).result = .ok s)
    (hrest : EndsStatement (Statement.parseWhole scope lexemes).rest) : EndsStatement lexemes := by
  obtain ⟨w, line, heq, -⟩ := exists_statement_of_parseWhole h
  rw [heq]
  exact hrest.semicolon w line

end Grammar

end IndicatorFormula
