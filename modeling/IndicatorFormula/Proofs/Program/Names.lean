import IndicatorFormula.Proofs.Program.Concatenation
import IndicatorFormula.Proofs.Program.ErrorLines

/-!
The names a formula assigns stand in its lexemes. A formula that runs has an assignment mark only
behind the first lexeme of a statement, and the names in front of these marks are those of the
table it comes to (`run_names`). It has no comparison.
-/

namespace IndicatorFormula

/-- The name stands right in front of an assignment mark. -/
def MarksName (lexemes : List Lexeme) (name : String) : Prop :=
  ∃ before line mark markLine after,
    lexemes = before ++ ⟨.identifier name, line⟩ :: ⟨.assign mark, markLine⟩ :: after

/-- The lexemes begin an assignment to the name. -/
def Assigns (lexemes : List Lexeme) (name : String) : Prop :=
  ∃ line mark markLine after,
    lexemes = ⟨.identifier name, line⟩ :: ⟨.assign mark, markLine⟩ :: after

variable {lexemes w rest before after : List Lexeme} {lexeme : Lexeme} {line : Nat} {name : String}

theorem not_marksName_nil : ¬MarksName [] name := by
  rintro ⟨before, line, mark, markLine, after, h⟩
  exact List.append_ne_nil_of_right_ne_nil before (List.cons_ne_nil _ _) h.symm

/-- What is not the semicolon itself stands before it or behind it. -/
theorem split_at_semicolon (h : w ++ ⟨.semicolon, line⟩ :: rest = before ++ lexeme :: after)
    (htoken : lexeme.token ≠ .semicolon) :
    (∃ u, w = before ++ lexeme :: u) ∨
      ∃ u, before = w ++ ⟨.semicolon, line⟩ :: u ∧ rest = u ++ lexeme :: after := by
  rcases List.append_eq_append_iff.1 h with ⟨u, hbefore, hrest⟩ | ⟨u, hw, hafter⟩
  · cases u with
    | nil =>
      obtain ⟨rfl, -⟩ := List.cons.inj hrest
      exact absurd rfl htoken
    | cons first u =>
      obtain ⟨rfl, htail⟩ := List.cons.inj hrest
      exact .inr ⟨u, hbefore, htail⟩
  · cases u with
    | nil =>
      obtain ⟨rfl, -⟩ := List.cons.inj hafter
      exact absurd rfl htoken
    | cons first u =>
      obtain ⟨rfl, -⟩ := List.cons.inj hafter
      exact .inl ⟨u, hw⟩

/-! ## One statement -/

namespace Grammar

variable {scope : Scope} {s : Statement} {mark : String}

theorem IsSum.not_mem_assign {e : Expr} (h : IsSum scope w e) : ⟨.assign mark, line⟩ ∉ w :=
  fun hmem => h.isExpressionToken _ hmem

/-- The only assignment mark of a statement stands behind its first lexeme. -/
theorem IsStatement.assign_of_append (h : IsStatement scope w s)
    (hw : w = before ++ ⟨.assign mark, line⟩ :: after) :
    ∃ name nameLine, before = [⟨.identifier name, nameLine⟩] ∧ isReserved name = false ∧
      s.assigned = [name] := by
  cases h with
  | @assign name w e _ nameLine _ hname hsum =>
    rcases before with _ | ⟨first, _ | ⟨second, before⟩⟩
    · cases hw
    · obtain ⟨rfl, -⟩ := List.cons.inj hw
      exact ⟨name, nameLine, rfl, hname, rfl⟩
    · obtain ⟨-, hw⟩ := List.cons.inj hw
      obtain ⟨-, rfl⟩ := List.cons.inj hw
      exact absurd (List.mem_append_right before (List.mem_cons_self ..)) hsum.not_mem_assign
  | bare hsum =>
    have hmem : ⟨.assign mark, line⟩ ∈ before ++ ⟨.assign mark, line⟩ :: after :=
      List.mem_append_right before (List.mem_cons_self ..)
    exact absurd (hw ▸ hmem) hsum.not_mem_assign

theorem IsStatement.assigns (h : IsStatement scope w s) (hname : name ∈ s.assigned) :
    Assigns w name := by
  cases h with
  | assign mark nameLine line hreserved hsum =>
    rw [List.mem_singleton.1 hname]
    exact ⟨nameLine, mark, line, _, rfl⟩
  | bare hsum => cases hname

theorem IsStatement.not_mem_comparison (h : IsStatement scope w s) (text : String) (line : Nat) :
    ⟨.comparison text, line⟩ ∉ w := by
  intro hmem
  cases h with
  | assign mark nameLine markLine hname hsum =>
    rcases List.mem_cons.1 hmem with heq | hmem
    · cases heq
    · rcases List.mem_cons.1 hmem with heq | hmem
      · cases heq
      · exact hsum.isExpressionToken _ hmem
  | bare hsum => exact hsum.isExpressionToken _ hmem

theorem IsStatement.marksName_iff (h : IsStatement scope w s) :
    MarksName (w ++ ⟨.semicolon, line⟩ :: rest) name ↔ name ∈ s.assigned ∨ MarksName rest name := by
  constructor
  · rintro ⟨before, nameLine, mark, markLine, after, heq⟩
    have hmark := heq.trans (List.append_cons before ⟨.identifier name, nameLine⟩ _)
    rcases split_at_semicolon hmark (fun h => nomatch h) with ⟨u, hw⟩ | ⟨u, hbefore, hrest⟩
    · obtain ⟨other, otherLine, hbefore, -, hassigned⟩ := h.assign_of_append hw
      obtain ⟨-, hother⟩ := List.append_inj' (hbefore.trans (List.nil_append _).symm) rfl
      cases hother
      exact .inl (hassigned ▸ List.mem_singleton_self name)
    · -- the name is not the semicolon, so it stands behind it with the mark
      rcases List.eq_nil_or_concat u with rfl | ⟨u, last, rfl⟩
      · obtain ⟨-, hlast⟩ := List.append_inj' hbefore rfl
        cases hlast
      · rw [List.concat_eq_append, ← List.cons_append, ← List.append_assoc] at hbefore
        obtain ⟨-, hlast⟩ := List.append_inj' hbefore rfl
        cases hlast
        rw [List.concat_eq_append, ← List.append_cons] at hrest
        exact .inr ⟨u, nameLine, mark, markLine, after, hrest⟩
  · rintro (hassigned | ⟨before, nameLine, mark, markLine, after, rfl⟩)
    · obtain ⟨nameLine, mark, markLine, after, rfl⟩ := h.assigns hassigned
      exact ⟨[], nameLine, mark, markLine, _, rfl⟩
    · refine ⟨w ++ ⟨.semicolon, line⟩ :: before, nameLine, mark, markLine, after, ?_⟩
      rw [List.append_assoc, List.cons_append]

end Grammar

/-! ## All statements of a run -/

namespace Program

variable {inputs : Inputs} {endLine count : Nat} {table final : Table Series} {mark : String}

theorem ComesTo.mem_names (h : ComesTo inputs endLine table lexemes count final []) :
    name ∈ final.names ↔ MarksName lexemes name ∨ name ∈ table.names := by
  generalize hend : ([] : List Lexeme) = here at h
  induction h with
  | start =>
    subst hend
    rw [or_iff_right not_marksName_nil]
  | @turn table after final lexemes rest here s count hs hafter h ih =>
    obtain ⟨w, line, rfl, hw⟩ := Grammar.parseWhole_eq_ok_iff.1 hs
    rw [ih hend, Statement.mem_names_execute hafter, hw.marksName_iff, or_assoc, or_left_comm]

/-- Where the run comes to an assignment mark, a statement begins right before it. -/
theorem ComesTo.exists_of_assign (h : ComesTo inputs endLine table lexemes count final [])
    (hlexemes : lexemes = before ++ ⟨.assign mark, line⟩ :: after) :
    ∃ earlier name nameLine turns reached, before = earlier ++ [⟨.identifier name, nameLine⟩] ∧
      EndsStatement earlier ∧ isReserved name = false ∧
      ComesTo inputs endLine table lexemes turns reached
        (⟨.identifier name, nameLine⟩ :: ⟨.assign mark, line⟩ :: after) := by
  -- only in the run, not in the lists of the conclusion
  obtain ⟨here, hend⟩ : ∃ here : List Lexeme, [] = here := ⟨_, rfl⟩
  rw [hend] at h
  induction h generalizing before with
  | start =>
    subst hend
    exact absurd hlexemes.symm (List.append_ne_nil_of_right_ne_nil before (List.cons_ne_nil _ _))
  | @turn table next final lexemes rest here s count hs hnext h ih =>
    obtain ⟨w, semicolonLine, heq, hw⟩ := Grammar.parseWhole_eq_ok_iff.1 hs
    rcases split_at_semicolon (heq.symm.trans hlexemes) (fun h => nomatch h) with
      ⟨u, hmark⟩ | ⟨u, hbefore, hrest⟩
    · obtain ⟨name, nameLine, rfl, hname, -⟩ := hw.assign_of_append hmark
      refine ⟨[], name, nameLine, 0, table, rfl, endsStatement_nil, hname, ?_⟩
      rw [hlexemes]
      exact .start
    · obtain ⟨earlier, name, nameLine, turns, reached, rfl, hearlier, hname, hcomes⟩ :=
        ih hrest hend
      refine ⟨w ++ ⟨.semicolon, semicolonLine⟩ :: earlier, name, nameLine, turns + 1, reached,
        ?_, ?_, hname, .turn hs hnext hcomes⟩
      · rw [hbefore, List.append_assoc, List.cons_append]
      · exact hearlier.semicolon w semicolonLine

theorem ComesTo.not_mem_comparison (h : ComesTo inputs endLine table lexemes count final [])
    (text : String) (line : Nat) : ⟨.comparison text, line⟩ ∉ lexemes := by
  generalize hend : ([] : List Lexeme) = here at h
  induction h with
  | start =>
    subst hend
    exact List.not_mem_nil
  | @turn table after final lexemes rest here s count hs hafter h ih =>
    obtain ⟨w, semicolonLine, rfl, hw⟩ := Grammar.parseWhole_eq_ok_iff.1 hs
    intro hmem
    rcases List.mem_append.1 hmem with hmem | hmem
    · exact hw.not_mem_comparison text line hmem
    · rcases List.mem_cons.1 hmem with heq | hmem
      · cases heq
      · exact ih hend hmem

theorem ComesTo.not_isReserved (h : ComesTo inputs endLine table lexemes count final [])
    (hname : MarksName lexemes name) : isReserved name = false := by
  obtain ⟨before, line, mark, markLine, after, hlexemes⟩ := hname
  rw [List.append_cons] at hlexemes
  obtain ⟨earlier, other, otherLine, turns, reached, hbefore, -, hother, -⟩ :=
    h.exists_of_assign hlexemes
  obtain ⟨-, hlast⟩ := List.append_inj' hbefore rfl
  cases hlast
  exact hother

end Program

/-! ## Whole texts -/

theorem Token.Divides.matches {before text after : List Char}
    (h : Token.Divides before text after lexemes) :
    ∀ lexeme ∈ lexemes, lexeme.token.pattern.Matches lexeme.token.text.toList := by
  induction h with
  | blank hgap => exact fun _ h => nomatch h
  | token hgap htoken h ih => exact List.forall_mem_cons.2 ⟨htoken.written, ih⟩

theorem MarksName.isIdentifier {source : String} (h : MarksName lexemes name)
    (hlexemes : Token.lexemes source = .ok lexemes) :
    Token.Pattern.identifier.Matches name.toList := by
  obtain ⟨before, line, mark, markLine, after, rfl⟩ := h
  exact (Token.divides_of_lexemes hlexemes).matches ⟨.identifier name, line⟩
    (List.mem_append_right before (List.mem_cons_self ..))

namespace Program

theorem exists_comesTo_of_run {source : String} {table final : Table Series}
    (h : run source table = .ok final) :
    ∃ inputs lexemes count, Inputs.ofTable table = .ok inputs ∧
      Token.lexemes source = .ok lexemes ∧
        ComesTo inputs (Token.lastLine lexemes) .empty lexemes count final [] := by
  obtain ⟨inputs, hinputs, hrun⟩ := run_eq_ok_iff.1 h
  obtain ⟨lexemes, hlexemes, hrun⟩ := exists_lexemes_of_runFrom hrun
  obtain ⟨count, hcomes⟩ := runLexemes_eq_ok_iff.1 hrun
  exact ⟨inputs, lexemes, count, hinputs, hlexemes, hcomes⟩

/-- The names of the table a formula comes to are those in front of its assignment marks. These are
no reserved names, and each begins a statement that the run comes to. -/
theorem run_names (source : String) :
    (∀ table final, run source table = .ok final →
      ∃ inputs lexemes, Inputs.ofTable table = .ok inputs ∧ Token.lexemes source = .ok lexemes ∧
        (∀ name, name ∈ final.names ↔ MarksName lexemes name) ∧
        (∀ name, MarksName lexemes name →
          Token.Pattern.identifier.Matches name.toList ∧ isReserved name = false) ∧
        (∀ before mark line after, lexemes = before ++ ⟨.assign mark, line⟩ :: after →
          ∃ earlier name nameLine turns reached,
            before = earlier ++ [⟨.identifier name, nameLine⟩] ∧ EndsStatement earlier ∧
            ComesTo inputs (Token.lastLine lexemes) .empty lexemes turns reached
              (⟨.identifier name, nameLine⟩ :: ⟨.assign mark, line⟩ :: after)) ∧
        ∀ text line, ⟨.comparison text, line⟩ ∉ lexemes) ∧
    ∀ lexemes, Token.lexemes source = .ok lexemes →
      (∃ name, MarksName lexemes name ∧ isReserved name = true) ∨
        (∃ text line, ⟨.comparison text, line⟩ ∈ lexemes) →
      ∀ table, ∃ failure, run source table = .error failure := by
  constructor
  · intro table final h
    obtain ⟨inputs, lexemes, count, hinputs, hlexemes, hcomes⟩ := exists_comesTo_of_run h
    refine ⟨inputs, lexemes, hinputs, hlexemes, fun name => ?_, fun name hname => ?_,
      fun before mark line after heq => ?_, hcomes.not_mem_comparison⟩
    · rw [hcomes.mem_names, or_iff_left]
      exact fun hmem => nomatch hmem
    · exact ⟨hname.isIdentifier hlexemes, hcomes.not_isReserved hname⟩
    · obtain ⟨earlier, name, nameLine, turns, reached, hbefore, hearlier, -, hreached⟩ :=
        hcomes.exists_of_assign heq
      exact ⟨earlier, name, nameLine, turns, reached, hbefore, hearlier, hreached⟩
  · intro lexemes hlexemes hrefused table
    cases hrun : run source table with
    | error failure => exact ⟨failure, rfl⟩
    | ok final =>
      obtain ⟨inputs, found, count, -, hfound, hcomes⟩ := exists_comesTo_of_run hrun
      obtain rfl := Except.ok.inj (hfound.symm.trans hlexemes)
      rcases hrefused with ⟨name, hname, hreserved⟩ | ⟨text, line, hmem⟩
      · rw [hcomes.not_isReserved hname] at hreserved
        cases hreserved
      · exact absurd hmem (hcomes.not_mem_comparison text line)

end Program

end IndicatorFormula
