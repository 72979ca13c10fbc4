import IndicatorFormula.Proofs.Grammar.Exactness
import IndicatorFormula.Proofs.Grammar.Sentences

/-!
A token is reported where it is the first that no sentence can have: what stands before it begins
a sentence, and with it nothing does. Where the end of the formula is reported, all of it begins a
sentence and is none (`parseWhole_first_error`).
-/

namespace IndicatorFormula

/-- The errors that say what was found where something else belongs. -/
inductive SyntaxError.Finds : SyntaxError → Option Token → Prop
  | unexpectedToken (token : Token) (line : Nat) : Finds (unexpectedToken token line) (some token)
  | unexpectedEnd (line : Nat) : Finds (unexpectedEnd line) none
  | expectedToken (expected : Expectation) (found : Option Token) (line : Nat) :
    Finds (expectedToken expected found line) found
  | missingSemicolon (found : Option Token) (line : Nat) :
    Finds (missingSemicolon found line) found

namespace Grammar

open IndicatorFormula.Expr (Level Bracket Frame)

/-- The tokens begin something in the language. -/
def Viable (language : List Token → Prop) (u : List Token) : Prop :=
  ∃ v, language (u ++ v)

/-- The token found on the line is the first that cannot stand where it does: the tokens before it
begin something in the language, with it they do not, and nothing behind it was taken. Where the
end was found, everything was taken and begins something in the language, but is not in it. -/
def FailsFirst (language : List Token → Prop) (endLine : Nat) (lexemes : List Lexeme) (line : Nat)
    (rest : List Lexeme) : Option Token → Prop
  | some token => ∃ taken, lexemes = taken ++ ⟨token, line⟩ :: rest ∧
    Viable language (tokens taken) ∧ ¬Viable language (tokens taken ++ [token])
  | none => rest = [] ∧ line = endLine ∧ Viable language (tokens lexemes) ∧
    ¬language (tokens lexemes)

variable {language language' : List Token → Prop} {endLine line : Nat} {lexeme : Lexeme}
  {lexemes rest : List Lexeme} {found : Option Token} {token : Token}

theorem failsFirst_here (hviable : Viable language []) (htoken : ∀ v, ¬language (token :: v)) :
    FailsFirst language endLine (⟨token, line⟩ :: rest) line rest (some token) :=
  ⟨[], rfl, hviable, fun ⟨v, hv⟩ => htoken v hv⟩

/-- The lexeme behind the first is all that may decide what the first leads to. -/
theorem FailsFirst.cons (h : FailsFirst language endLine lexemes line rest found)
    (hleads : ∀ u, language u → language' (lexeme.token :: u))
    (hback : ∀ u, u.head? = lexemes.head?.map Lexeme.token → language' (lexeme.token :: u) →
      language u) :
    FailsFirst language' endLine (lexeme :: lexemes) line rest found := by
  cases found with
  | some token =>
    obtain ⟨taken, rfl, ⟨v, hv⟩, hdead⟩ := h
    refine ⟨lexeme :: taken, rfl, ⟨v, hleads _ hv⟩, fun ⟨v, hv⟩ => hdead ⟨v, hback _ ?_ hv⟩⟩
    cases taken <;> rfl
  | none =>
    obtain ⟨rfl, hline, ⟨v, hv⟩, hnot⟩ := h
    refine ⟨rfl, hline, ⟨v, hleads _ hv⟩, fun h => hnot (hback _ ?_ h)⟩
    exact List.head?_map ..

/-! ## Expressions -/

def Opened.ofBracket : Bracket → Opened
  | .group => group
  | .call .. => call

def opened (stack : List Frame) : List Opened :=
  stack.map fun frame => Opened.ofBracket frame.bracket

def Place.position : Place → Position
  | due _ => .due
  | behind .. => .behind

theorem viable_nil (opened : List Opened) (position : Position) :
    Viable (Finishes opened position) [] := by
  have hbehind : ∃ u, Finishes opened .behind u := by
    induction opened with
    | nil => exact ⟨_, .done⟩
    | cons bracket opened ih =>
      obtain ⟨u, hu⟩ := ih
      exact ⟨_, .close bracket hu⟩
  cases position with
  | due =>
    obtain ⟨u, hu⟩ := hbehind
    exact ⟨_, .number "0" hu⟩
  | behind => exact hbehind

/-- What a reader that expects a semicolon next finds wrong with what was read. -/
inductive Blames {α : Type} (endLine : Nat) :
    Parsed α → Nat → List Lexeme → Option Token → Prop
  | error {e : SyntaxError} {rest : List Lexeme} {found : Option Token} (h : e.Finds found) :
    Blames endLine ⟨.error e, rest⟩ e.line rest found
  | unended {value : α} {token : Token} {line : Nat} {rest : List Lexeme}
    (htoken : token ≠ .semicolon) :
    Blames endLine ⟨.ok value, ⟨token, line⟩ :: rest⟩ line rest (some token)
  | exhausted {value : α} : Blames endLine ⟨.ok value, []⟩ endLine [] none

variable {scope : Scope} {stack : List Frame} {place : Place}

theorem not_head?_eq_leftParen (hcall : ∀ line, ⟨.leftParen, line⟩ ∉ lexemes.head?) :
    lexemes.head?.map Lexeme.token ≠ some .leftParen := by
  intro h
  obtain ⟨⟨token, line⟩, hhead, htoken⟩ := Option.map_eq_some_iff.1 h
  cases htoken
  exact hcall line hhead

/-- The check of a call is about its arguments, not about what was found. -/
theorem not_finds_of_ofCall {f : Builtin} {es : List Expr} {e : SyntaxError}
    (h : Expr.ofCall f es line = .error e) : ¬e.Finds found := by
  rcases ofCall_eq_error_cases h with rfl | rfl | ⟨series, period, n, -, -, -, -, rfl⟩
  all_goals exact fun h => nomatch h

theorem beginsOperand_of_finishes {opened : List Opened} {u : List Token}
    (h : Finishes opened .due (token :: u)) : BeginsOperand token := by
  cases h <;> trivial

theorem takes_of_finishes {bracket : Bracket} {opened : List Opened} {u : List Token}
    (h : Finishes (.ofBracket bracket :: opened) .behind (token :: u)) : Takes bracket token := by
  cases bracket <;> cases h <;> trivial

theorem Reads.failsFirst {p : Parsed Expr} (h : Reads scope .sum stack place lexemes p)
    (hblames : Blames scope.endLine p line rest found) :
    FailsFirst (Finishes (opened stack) place.position) scope.endLine lexemes line rest found := by
  induction h with
  | nothing | unclosed =>
    cases hblames with
    | error h =>
      cases h
      exact ⟨rfl, rfl, viable_nil .., not_finishes_nil⟩
  | number h ih =>
    exact (ih hblames).cons (fun _ => finishes_number.2) fun _ _ => finishes_number.1
  | openGroup h ih =>
    exact (ih hblames).cons (fun _ => finishes_leftParen.2) fun _ _ => finishes_leftParen.1
  | unknownCall | unknownName =>
    cases hblames with
    | error h => cases h
  | @openCall stack level f line openLine lexemes p h ih =>
    -- the name and its parenthesis lead on together
    have hopen : FailsFirst (fun u => Finishes (opened stack) .due (.identifier f.name :: u))
        scope.endLine (⟨.leftParen, openLine⟩ :: lexemes) _ rest found :=
      (ih hblames).cons (fun _ => finishes_call.2) fun _ _ => finishes_call.1
    exact hopen.cons (fun _ => id) fun _ _ => id
  | name hcall hname h ih =>
    refine (ih hblames).cons (fun _ => .name _) fun u hhead => (finishes_name ?_).1
    rw [hhead]
    exact not_head?_eq_leftParen hcall
  | unexpected htoken =>
    cases hblames with
    | error h =>
      cases h
      exact failsFirst_here (viable_nil ..) fun _ h => htoken (beginsOperand_of_finishes h)
  | finish hop =>
    cases hblames with
    | unended htoken =>
      -- a complete operand is followed by an operator or by the semicolon
      refine failsFirst_here (viable_nil ..) fun v h => ?_
      cases h with
      | operator op h => exact hop op (mem_operators_sum op) _ rfl
      | done => exact htoken rfl
    | exhausted => exact ⟨rfl, rfl, viable_nil .., not_finishes_nil⟩
  | operator hop h ih =>
    exact (ih hblames).cons (fun _ => finishes_operator.2) fun _ _ => finishes_operator.1
  | closeGroup h ih | closeCall hes h ih =>
    exact (ih hblames).cons (fun _ => finishes_rightParen.2) fun _ _ => finishes_rightParen.1
  | refusedCall hcheck =>
    cases hblames with
    | error h => exact absurd h (not_finds_of_ofCall hcheck)
  | comma h ih =>
    exact (ih hblames).cons (fun _ => finishes_comma.2) fun _ _ => finishes_comma.1
  | refused htoken =>
    cases hblames with
    | error h =>
      cases h
      exact failsFirst_here (viable_nil ..) fun _ h => htoken (takes_of_finishes h)

/-! ## Statements -/

theorem Blames.of_map {α β : Type} {f : α → β} {p : Parsed α}
    (h : Blames endLine ⟨p.result.map f, p.rest⟩ line rest found) :
    Blames endLine p line rest found := by
  obtain ⟨_ | value, after⟩ := p
  · cases h with
    | error h => exact .error h
  · cases h with
    | unended htoken => exact .unended htoken
    | exhausted => exact .exhausted

theorem marksAssignment_of_tokens {name mark : String} {u : List Token}
    (h : tokens lexemes = .identifier name :: .assign mark :: u) : MarksAssignment lexemes := by
  obtain ⟨⟨_, line⟩, later, rfl, rfl, hlater⟩ := List.map_eq_cons_iff.1 h
  obtain ⟨⟨_, markLine⟩, rest, rfl, rfl, -⟩ := List.map_eq_cons_iff.1 hlater
  exact ⟨_, _, _, _, _, rfl⟩

theorem FailsFirst.sentence (hassign : ¬MarksAssignment lexemes)
    (h : FailsFirst (Finishes [] .due) endLine lexemes line rest found) :
    FailsFirst Sentence endLine lexemes line rest found := by
  cases found with
  | none =>
    obtain ⟨hrest, hline, ⟨v, hv⟩, hnot⟩ := h
    refine ⟨hrest, hline, ⟨v, sentence_iff.2 (.inl hv)⟩, fun h => ?_⟩
    rcases sentence_iff.1 h with h | ⟨name, mark, v, heq, -⟩
    · exact hnot h
    · exact hassign (marksAssignment_of_tokens heq)
  | some token =>
    obtain ⟨taken, rfl, ⟨v, hv⟩, hdead⟩ := h
    refine ⟨taken, rfl, ⟨v, sentence_iff.2 (.inl hv)⟩, fun ⟨v, hv⟩ => ?_⟩
    rcases sentence_iff.1 hv with hv | ⟨name, mark, w, heq, -⟩
    · exact hdead ⟨v, hv⟩
    · rw [List.append_assoc] at heq
      cases taken with
      | nil =>
        -- a name may always stand first
        obtain ⟨rfl, -⟩ := List.cons.inj heq
        exact hdead ⟨[.semicolon], .name name .done⟩
      | cons first taken =>
        obtain ⟨hfirst, heq⟩ := List.cons.inj heq
        have hhead : (tokens taken ++ token :: tokens rest).head? =
            (tokens taken ++ ([token] ++ v)).head? := by
          cases taken <;> rfl
        obtain ⟨u, hu⟩ := List.head?_eq_some_iff.1 (hhead.trans (congrArg List.head? heq))
        have htokens : tokens (first :: taken ++ ⟨token, line⟩ :: rest) =
            .identifier name :: .assign mark :: u := by
          rw [List.cons_append, tokens_cons, hfirst, tokens_append, tokens_cons, hu]
        exact hassign (marksAssignment_of_tokens htokens)

theorem ReadsStatement.failsFirst {p : Parsed Statement} (h : ReadsStatement scope lexemes p)
    (hblames : Blames scope.endLine p line rest found) :
    FailsFirst Sentence scope.endLine lexemes line rest found := by
  cases h with
  | reserved hname =>
    cases hblames with
    | error h => cases h
  | @assign name mark nameLine markLine lexemes p hname h =>
    have hvalue := h.failsFirst hblames.of_map
    have hassign : FailsFirst (fun u => Sentence (.identifier name :: u)) scope.endLine
        (⟨.assign mark, markLine⟩ :: lexemes) line rest found :=
      hvalue.cons (fun _ => sentence_assign.2) fun _ _ => sentence_assign.1
    exact hassign.cons (fun _ => id) fun _ _ => id
  | bare hassign h => exact (h.failsFirst hblames.of_map).sentence hassign

theorem failsFirst_parseWhole {e : SyntaxError}
    (h : Statement.parseWhole scope lexemes = ⟨.error e, rest⟩) (hfinds : e.Finds found) :
    FailsFirst Sentence scope.endLine lexemes e.line rest found := by
  have hwhole := readsWhole_parseWhole scope lexemes
  rw [h] at hwhole
  cases hwhole with
  | failed hstatement => exact hstatement.failsFirst (.error hfinds)
  | unended hstatement htoken =>
    cases hfinds
    exact hstatement.failsFirst (.unended htoken)
  | exhausted hstatement =>
    cases hfinds
    exact hstatement.failsFirst .exhausted

/-- What is taken of a statement that is read is a sentence. -/
theorem sentence_of_parseWhole {s : Statement}
    (h : Statement.parseWhole scope lexemes = ⟨.ok s, rest⟩) :
    ∃ taken, lexemes = taken ++ rest ∧ Sentence (tokens taken) := by
  have hwhole := readsWhole_parseWhole scope lexemes
  rw [h] at hwhole
  cases hwhole with
  | @ended s line rest hstatement =>
    obtain ⟨w, rfl, hw, -⟩ := statement_of_parse hstatement.eq
    refine ⟨w ++ [⟨.semicolon, line⟩], by rw [List.append_assoc]; rfl, ?_⟩
    rw [tokens_append]
    exact .statement hw.statementTokens

end Grammar

theorem SyntaxError.exists_cause_of_finds {e : SyntaxError} {found : Option Token}
    (h : e.Finds found) : ∃ opening, e.cause = opening ++ describeFound found ++ "." := by
  cases h with
  | unexpectedToken token line => exact ⟨"Unexpected token: ", rfl⟩
  | unexpectedEnd line => exact ⟨"Unexpected ", rfl⟩
  | expectedToken expected found line =>
    exact ⟨"Expected " ++ expected.text ++ " but found ", rfl⟩
  | missingSemicolon found line => exact ⟨"Expected ';' after statement but found ", rfl⟩

namespace Statement

/-- A statement that is refused over what stands somewhere is refused at the first place where it
can be, and the message quotes what stands there. -/
theorem parseWhole_first_error {scope : Scope} {lexemes rest : List Lexeme} {e : SyntaxError}
    {found : Option Token} (h : parseWhole scope lexemes = ⟨.error e, rest⟩)
    (hfinds : e.Finds found) :
    Grammar.FailsFirst Grammar.Sentence scope.endLine lexemes e.line rest found ∧
      ∃ opening, e.message = onLine e.line (opening ++ describeFound found ++ ".") := by
  refine ⟨Grammar.failsFirst_parseWhole h hfinds, ?_⟩
  obtain ⟨opening, hcause⟩ := e.exists_cause_of_finds hfinds
  exact ⟨opening, congrArg (onLine e.line) hcause⟩

theorem parseWhole_first_error_argument :
    parseWhole ⟨[], 3⟩ [⟨.identifier "MA", 1⟩, ⟨.leftParen, 1⟩, ⟨.number "2", 2⟩, ⟨.comma, 2⟩,
        ⟨.rightParen, 2⟩, ⟨.semicolon, 3⟩] =
      ⟨.error (.unexpectedToken .rightParen 2), [⟨.semicolon, 3⟩]⟩ ∧
    (SyntaxError.unexpectedToken .rightParen 2).Finds (some .rightParen) ∧
    Grammar.FailsFirst Grammar.Sentence 3 [⟨.identifier "MA", 1⟩, ⟨.leftParen, 1⟩,
        ⟨.number "2", 2⟩, ⟨.comma, 2⟩, ⟨.rightParen, 2⟩, ⟨.semicolon, 3⟩] 2 [⟨.semicolon, 3⟩]
      (some .rightParen) := by
  have h : parseWhole ⟨[], 3⟩ [⟨.identifier "MA", 1⟩, ⟨.leftParen, 1⟩, ⟨.number "2", 2⟩,
      ⟨.comma, 2⟩, ⟨.rightParen, 2⟩, ⟨.semicolon, 3⟩] =
        ⟨.error (.unexpectedToken .rightParen 2), [⟨.semicolon, 3⟩]⟩ := by
    with_unfolding_all rfl
  exact ⟨h, .unexpectedToken _ _, (parseWhole_first_error h (.unexpectedToken _ _)).1⟩

end Statement

end IndicatorFormula
