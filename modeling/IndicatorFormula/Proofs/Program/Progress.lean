import IndicatorFormula.Proofs.Program.ErrorLines

/-!
Progress of reading. Each rule takes lexemes from the front only, and whether it succeeds or fails
it takes at least one, unless there is none or a reserved name is to be assigned. A loop that
attempts one rule after another while lexemes are left therefore ends, also where it goes on after
other errors, and a run is such a loop (`attempt_progress`).
-/

namespace IndicatorFormula

namespace Grammar

open IndicatorFormula.Expr (Frame Level)

variable {scope : Scope} {chain : Chain} {stack : List Frame} {place : Place} {level : Level}
  {lexeme : Lexeme} {lexemes here : List Lexeme} {count : Nat}

/-! ## Rules -/

theorem Reads.rest_suffix {p : Parsed Expr} (h : Reads scope chain stack place lexemes p) :
    p.rest <:+ lexemes := by
  rw [← h.eq]
  cases place with
  | due level => exact Expr.rest_parseOperand_suffix ..
  | behind level operand => exact Expr.rest_parseAfter_suffix ..

/-- Where an operand is due the first lexeme is taken, whatever it is. -/
theorem Reads.rest_suffix_tail {p : Parsed Expr}
    (h : Reads scope chain stack (.due level) (lexeme :: lexemes) p) : p.rest <:+ lexemes := by
  cases h with
  | number h | openGroup h | name _ _ h => exact h.rest_suffix
  | openCall h => exact h.rest_suffix.trans (List.suffix_cons ..)
  | unknownCall => exact List.suffix_cons ..
  | unknownName | unexpected => exact List.suffix_rfl

/-- Only a statement can begin with a reserved name that is to be assigned. -/
theorem Reads.ne_reservedName {p : Parsed Expr} (h : Reads scope chain stack place lexemes p)
    (name : String) (line : Nat) : p.result ≠ .error (.reservedName name line) := by
  induction h with
  | number h ih | openGroup h ih | openCall h ih | name _ _ h ih | operator _ h ih
  | closeGroup h ih | closeCall _ h ih | comma h ih => exact ih
  | refusedCall hcheck =>
    intro herror
    obtain rfl := Except.error.inj herror
    rcases ofCall_eq_error_cases hcheck with h | h | ⟨series, period, n, -, -, -, -, h⟩ <;> cases h
  | nothing | unknownCall | unknownName | unexpected | finish | unclosed | refused =>
    exact fun herror => nomatch herror

def IsReservedName (e : SyntaxError) : Prop :=
  ∃ name line, e = .reservedName name line

/-- Lexemes are taken from the front, and at least one of them, unless there is none or a reserved
name is to be assigned: then none is taken. -/
structure Advances {α : Type} (lexemes : List Lexeme) (p : Parsed α) : Prop where
  suffix : p.rest <:+ lexemes
  of_ok : ∀ a, p.result = .ok a → p.rest.length < lexemes.length
  of_error : ∀ e, p.result = .error e →
    (p.rest = lexemes ↔ lexemes = [] ∨ IsReservedName e)

variable {α β : Type} {p : Parsed α}

theorem advances_nil {e : SyntaxError} : Advances [] (⟨.error e, []⟩ : Parsed α) where
  suffix := List.suffix_rfl
  of_ok _ h := nomatch h
  of_error _ _ := iff_of_true rfl (.inl rfl)

theorem advances_cons (hsuffix : p.rest <:+ lexemes)
    (hreserved : ∀ e, p.result = .error e → ¬IsReservedName e) :
    Advances (lexeme :: lexemes) p where
  suffix := hsuffix.trans (List.suffix_cons ..)
  of_ok _ _ := Nat.lt_succ_of_le hsuffix.length_le
  of_error e he := by
    refine iff_of_false (fun hrest => ?_) ?_
    · have hlength := hsuffix.length_le
      rw [hrest, List.length_cons] at hlength
      exact Nat.not_succ_le_self _ hlength
    · rintro (h | h)
      · cases h
      · exact hreserved e he h

theorem Advances.map (h : Advances lexemes p) (f : α → β) :
    Advances lexemes ⟨p.result.map f, p.rest⟩ where
  suffix := h.suffix
  of_ok b hb := by
    cases hresult : p.result with
    | error e =>
      rw [hresult] at hb
      cases hb
    | ok a => exact h.of_ok a hresult
  of_error e he := h.of_error e (map_result_eq_error he)

theorem Advances.length_lt_iff (h : Advances lexemes p) {e : SyntaxError}
    (he : p.result = .error e) :
    p.rest.length < lexemes.length ↔ lexemes ≠ [] ∧ ¬IsReservedName e := by
  rw [← not_or, ← h.of_error e he]
  constructor
  · exact fun hlt heq => Nat.ne_of_lt hlt (congrArg List.length heq)
  · exact fun hne => Nat.lt_of_le_of_ne h.suffix.length_le fun heq =>
      hne (h.suffix.eq_of_length heq)

theorem advances_parse (scope : Scope) (chain : Chain) (lexemes : List Lexeme) :
    Advances lexemes (Expr.parse scope chain lexemes) := by
  have hreads := reads_parse scope chain lexemes
  cases lexemes with
  | nil => exact advances_nil
  | cons lexeme lexemes =>
    refine advances_cons hreads.rest_suffix_tail ?_
    rintro e he ⟨name, line, rfl⟩
    exact hreads.ne_reservedName name line he

theorem advances_statement (scope : Scope) (lexemes : List Lexeme) :
    Advances lexemes (Statement.parse scope lexemes) := by
  have hreads := readsStatement_parse scope lexemes
  generalize Statement.parse scope lexemes = p at hreads ⊢
  cases hreads with
  | @reserved name mark line markLine rest hname =>
    refine ⟨List.suffix_rfl, fun s hs => (nomatch hs), fun e he => iff_of_true rfl (.inr ?_)⟩
    cases he
    exact ⟨name, line, rfl⟩
  | @assign name mark line markLine rest p hname h =>
    refine advances_cons (h.rest_suffix.trans (List.suffix_cons ..)) ?_
    rintro e he ⟨name', line', rfl⟩
    exact h.ne_reservedName name' line' (map_result_eq_error he)
  | bare hassign h =>
    have hparse := advances_parse scope .sum lexemes
    rw [parse_of_reads h] at hparse
    exact hparse.map _

theorem advances_semicolon (scope : Scope) (lexemes : List Lexeme) :
    Advances lexemes (Statement.parseEnd scope lexemes) := by
  cases lexemes with
  | nil => exact advances_nil
  | cons lexeme lexemes =>
    unfold Statement.parseEnd
    split
    · next h => cases h
    · next h =>
      cases h
      exact advances_cons List.suffix_rfl fun e he => nomatch he
    · next h =>
      cases h
      refine advances_cons List.suffix_rfl ?_
      rintro e he ⟨name, line, rfl⟩
      cases he

/-! ## Loops -/

/-- What a reader can be asked for next. -/
inductive Rule
  | expression (chain : Chain)
  | statement
  | semicolon

/-- Reads by a rule and keeps only whether it succeeded. -/
def Rule.attempt (scope : Scope) (lexemes : List Lexeme) : Rule → Parsed Unit
  | .expression chain =>
    let p := Expr.parse scope chain lexemes
    ⟨p.result.map fun _ => (), p.rest⟩
  | .statement =>
    let p := Statement.parse scope lexemes
    ⟨p.result.map fun _ => (), p.rest⟩
  | .semicolon => Statement.parseEnd scope lexemes

theorem Rule.advances (scope : Scope) (lexemes : List Lexeme) (rule : Rule) :
    Advances lexemes (rule.attempt scope lexemes) := by
  cases rule with
  | expression chain => exact (advances_parse scope chain lexemes).map _
  | statement => exact (advances_statement scope lexemes).map _
  | semicolon => exact advances_semicolon scope lexemes

/-- A loop that has made `count` attempts has `here` left. It goes on while lexemes are left, with
any rule in any scope, and an error other than that of a reserved name does not stop it. -/
inductive LoopsTo : List Lexeme → Nat → List Lexeme → Prop
  | start {lexemes : List Lexeme} : LoopsTo lexemes 0 lexemes
  | turn {lexemes here : List Lexeme} {count : Nat} (rule : Rule) (scope : Scope)
    (hleft : lexemes ≠ [])
    (hgoes : ∀ e, (rule.attempt scope lexemes).result = .error e → ¬IsReservedName e)
    (h : LoopsTo (rule.attempt scope lexemes).rest count here) : LoopsTo lexemes (count + 1) here

theorem Rule.length_attempt_lt (rule : Rule) (scope : Scope) (hleft : lexemes ≠ [])
    (hgoes : ∀ e, (rule.attempt scope lexemes).result = .error e → ¬IsReservedName e) :
    (rule.attempt scope lexemes).rest.length < lexemes.length := by
  have hadvances := rule.advances scope lexemes
  cases hresult : (rule.attempt scope lexemes).result with
  | ok => exact hadvances.of_ok () hresult
  | error e => exact (hadvances.length_lt_iff hresult).2 ⟨hleft, hgoes e hresult⟩

theorem LoopsTo.length_le (h : LoopsTo lexemes count here) :
    count + here.length ≤ lexemes.length := by
  induction h with
  | start => omega
  | turn rule scope hleft hgoes h ih =>
    have hlt := rule.length_attempt_lt scope hleft hgoes
    omega

/-- Reading a statement and its semicolon is two turns. -/
theorem LoopsTo.whole {s : Statement} {rest : List Lexeme}
    (hs : Statement.parseWhole scope lexemes = ⟨.ok s, rest⟩) (h : LoopsTo rest count here) :
    LoopsTo lexemes (count + 2) here := by
  obtain ⟨w, line, rfl, hw⟩ := parseWhole_eq_ok_iff.1 hs
  obtain ⟨hstops, hassign⟩ := stops_semicolon w line rest
  have hstatement := parse_of_isStatement hw hstops hassign
  have hattempt : Rule.attempt scope (w ++ ⟨.semicolon, line⟩ :: rest) .statement =
      ⟨.ok (), ⟨.semicolon, line⟩ :: rest⟩ := by
    rw [Rule.attempt, hstatement]
    rfl
  refine .turn .statement scope (List.append_ne_nil_of_right_ne_nil _ (List.cons_ne_nil _ _)) ?_ ?_
  · rw [hattempt]
    exact fun e he => nomatch he
  · rw [hattempt]
    exact .turn .semicolon scope (List.cons_ne_nil _ _) (fun e he => nomatch he) h

end Grammar

namespace Program

variable {inputs : Inputs} {endLine count : Nat} {table reached : Table Series}
  {lexemes here : List Lexeme}

theorem ComesTo.loopsTo (h : ComesTo inputs endLine table lexemes count reached here) :
    Grammar.LoopsTo lexemes (2 * count) here := by
  induction h with
  | start => exact .start
  | turn hs hafter h ih => exact ih.whole hs

/-- A run comes to the end of the lexemes or to a statement that fails. -/
theorem exists_comesTo (inputs : Inputs) (endLine : Nat) (table : Table Series)
    (lexemes : List Lexeme) :
    ∃ count reached here, ComesTo inputs endLine table lexemes count reached here ∧
      (here = [] ∧ runLexemes inputs endLine table lexemes = .ok reached ∨
        ∃ span failure, Fails inputs endLine reached here span failure ∧
          runLexemes inputs endLine table lexemes = .error failure) := by
  cases hrun : runLexemes inputs endLine table lexemes with
  | ok final =>
    obtain ⟨count, hcomes⟩ := runLexemes_eq_ok_iff.1 hrun
    exact ⟨count, final, [], hcomes, .inl ⟨rfl, rfl⟩⟩
  | error failure =>
    obtain ⟨count, reached, here, span, hcomes, hfails⟩ := runLexemes_eq_error_iff.1 hrun
    exact ⟨count, reached, here, hcomes, .inr ⟨span, failure, hfails, rfl⟩⟩

end Program

namespace Grammar

open Program (ComesTo Fails runLexemes)

theorem attempt_progress :
    (∀ (rule : Rule) (scope : Scope) (lexemes : List Lexeme),
      let p := rule.attempt scope lexemes
      p.rest <:+ lexemes ∧ (p.result = .ok () → p.rest.length < lexemes.length) ∧
        ∀ e, p.result = .error e →
          (p.rest.length < lexemes.length ↔ lexemes ≠ [] ∧ ¬IsReservedName e) ∧
            (p.rest = lexemes ↔ lexemes = [] ∨ IsReservedName e)) ∧
    (∀ lexemes count here, LoopsTo lexemes count here → count + here.length ≤ lexemes.length) ∧
    ∀ inputs endLine table lexemes, ∃ count reached here,
      ComesTo inputs endLine table lexemes count reached here ∧ LoopsTo lexemes (2 * count) here ∧
        (here = [] ∧ runLexemes inputs endLine table lexemes = .ok reached ∨
          ∃ span failure, Fails inputs endLine reached here span failure ∧
            runLexemes inputs endLine table lexemes = .error failure) := by
  refine ⟨fun rule scope lexemes => ?_, fun lexemes count here h => h.length_le, ?_⟩
  · have hadvances := rule.advances scope lexemes
    exact ⟨hadvances.suffix, hadvances.of_ok (),
      fun e he => ⟨hadvances.length_lt_iff he, hadvances.of_error e he⟩⟩
  · intro inputs endLine table lexemes
    obtain ⟨count, reached, here, hcomes, hends⟩ :=
      Program.exists_comesTo inputs endLine table lexemes
    exact ⟨count, reached, here, hcomes, hcomes.loopsTo, hends⟩

end Grammar

end IndicatorFormula
