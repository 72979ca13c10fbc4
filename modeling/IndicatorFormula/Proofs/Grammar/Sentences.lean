import IndicatorFormula.Proofs.Grammar.Reads

/-!
Which tokens are a statement, whatever its names stand for and its functions take: the grammar of
formulas without names resolved or calls checked. A sentence is a statement with its semicolon.

`Finishes` tells which tokens complete a sentence from a place inside one, by the first of them,
and comes to the same as the grammar (`finishes_iff`).
-/

namespace IndicatorFormula.Grammar

mutual

inductive FactorTokens : List Token → Prop
  | number (text : String) : FactorTokens [.number text]
  | name (name : String) : FactorTokens [.identifier name]
  | group {w : List Token} (h : SumTokens w) : FactorTokens (.leftParen :: w ++ [.rightParen])
  | call (name : String) {w : List Token} (h : ArgumentTokens w) :
    FactorTokens (.identifier name :: .leftParen :: w ++ [.rightParen])

inductive TermTokens : List Token → Prop
  | factor {w : List Token} (h : FactorTokens w) : TermTokens w
  | chain {v w : List Token} {op : Operator} (hl : TermTokens v) (hop : op = .mul ∨ op = .div)
    (hr : FactorTokens w) : TermTokens (v ++ .operator op :: w)

inductive SumTokens : List Token → Prop
  | term {w : List Token} (h : TermTokens w) : SumTokens w
  | chain {v w : List Token} {op : Operator} (hl : SumTokens v) (hop : op = .add ∨ op = .sub)
    (hr : TermTokens w) : SumTokens (v ++ .operator op :: w)

inductive ArgumentTokens : List Token → Prop
  | single {w : List Token} (h : SumTokens w) : ArgumentTokens w
  | more {v w : List Token} (hes : ArgumentTokens v) (h : SumTokens w) :
    ArgumentTokens (v ++ .comma :: w)

end

inductive StatementTokens : List Token → Prop
  | assign (name mark : String) {w : List Token} (h : SumTokens w) :
    StatementTokens (.identifier name :: .assign mark :: w)
  | bare {w : List Token} (h : SumTokens w) : StatementTokens w

inductive Sentence : List Token → Prop
  | statement {w : List Token} (h : StatementTokens w) : Sentence (w ++ [.semicolon])

/-! ## What is derived with a tree is derived without -/

def tokens (lexemes : List Lexeme) : List Token :=
  lexemes.map Lexeme.token

theorem tokens_cons (lexeme : Lexeme) (lexemes : List Lexeme) :
    tokens (lexeme :: lexemes) = lexeme.token :: tokens lexemes :=
  rfl

theorem tokens_append (v w : List Lexeme) : tokens (v ++ w) = tokens v ++ tokens w :=
  List.map_append

mutual

theorem IsFactor.factorTokens {scope : Scope} {w : List Lexeme} {e : Expr} :
    IsFactor scope w e → FactorTokens (tokens w)
  | .number text _ => .number text
  | .input _ _ => .name _
  | .symbol _ _ _ => .name _
  | .group _ _ h => by
    rw [tokens_append]
    exact .group h.sumTokens
  | .call _ _ _ h _ => by
    rw [tokens_append]
    exact .call _ h.argumentTokens

theorem IsTerm.termTokens {scope : Scope} {w : List Lexeme} {e : Expr} :
    IsTerm scope w e → TermTokens (tokens w)
  | .factor h => .factor h.factorTokens
  | .chain _ hl hop hr => by
    rw [tokens_append]
    exact .chain hl.termTokens hop hr.factorTokens

theorem IsSum.sumTokens {scope : Scope} {w : List Lexeme} {e : Expr} :
    IsSum scope w e → SumTokens (tokens w)
  | .term h => .term h.termTokens
  | .chain _ hl hop hr => by
    rw [tokens_append]
    exact .chain hl.sumTokens hop hr.termTokens

theorem AreArguments.argumentTokens {scope : Scope} {w : List Lexeme} {es : List Expr} :
    AreArguments scope w es → ArgumentTokens (tokens w)
  | .single h => .single h.sumTokens
  | .more _ hes h => by
    rw [tokens_append]
    exact .more hes.argumentTokens h.sumTokens

end

theorem IsStatement.statementTokens {scope : Scope} {w : List Lexeme} {s : Statement}
    (h : IsStatement scope w s) : StatementTokens (tokens w) := by
  cases h with
  | assign mark line markLine hname h => exact .assign _ mark h.sumTokens
  | bare h => exact .bare h.sumTokens

/-! ## Completion by the first token -/

/-- A bracket that is open. -/
inductive Opened
  | group
  | call
  deriving DecidableEq, Repr

/-- Where an operand is due, or behind one. -/
inductive Position
  | due
  | behind
  deriving DecidableEq, Repr

/-- The tokens complete a sentence from a position in brackets that are open. -/
inductive Finishes : List Opened → Position → List Token → Prop
  | number {opened : List Opened} (text : String) {u : List Token}
    (h : Finishes opened .behind u) : Finishes opened .due (.number text :: u)
  | name {opened : List Opened} (name : String) {u : List Token}
    (h : Finishes opened .behind u) : Finishes opened .due (.identifier name :: u)
  | group {opened : List Opened} {u : List Token} (h : Finishes (.group :: opened) .due u) :
    Finishes opened .due (.leftParen :: u)
  | call {opened : List Opened} (name : String) {u : List Token}
    (h : Finishes (.call :: opened) .due u) :
    Finishes opened .due (.identifier name :: .leftParen :: u)
  | operator {opened : List Opened} (op : Operator) {u : List Token}
    (h : Finishes opened .due u) : Finishes opened .behind (.operator op :: u)
  | close {opened : List Opened} (bracket : Opened) {u : List Token}
    (h : Finishes opened .behind u) : Finishes (bracket :: opened) .behind (.rightParen :: u)
  | comma {opened : List Opened} {u : List Token} (h : Finishes (.call :: opened) .due u) :
    Finishes (.call :: opened) .behind (.comma :: u)
  | done : Finishes [] .behind [.semicolon]

variable {opened : List Opened} {position : Position} {u v w : List Token}

/-! Each first token leads to one position, and no two rules share one: a name is looked at
together with what follows it. -/

theorem not_finishes_nil : ¬Finishes opened position [] :=
  fun h => nomatch h

theorem finishes_number {text : String} :
    Finishes opened .due (.number text :: u) ↔ Finishes opened .behind u := by
  refine ⟨fun h => ?_, .number text⟩
  cases h with
  | number _ h => exact h

theorem finishes_leftParen :
    Finishes opened .due (.leftParen :: u) ↔ Finishes (.group :: opened) .due u := by
  refine ⟨fun h => ?_, .group⟩
  cases h with
  | group h => exact h

theorem finishes_call {name : String} :
    Finishes opened .due (.identifier name :: .leftParen :: u) ↔
      Finishes (.call :: opened) .due u := by
  refine ⟨fun h => ?_, .call name⟩
  cases h with
  | name _ h => cases h
  | call _ h => exact h

theorem finishes_name {name : String} (hcall : u.head? ≠ some .leftParen) :
    Finishes opened .due (.identifier name :: u) ↔ Finishes opened .behind u := by
  refine ⟨fun h => ?_, .name name⟩
  cases h with
  | name _ h => exact h
  | call _ h => exact absurd rfl hcall

theorem finishes_operator {op : Operator} :
    Finishes opened .behind (.operator op :: u) ↔ Finishes opened .due u := by
  refine ⟨fun h => ?_, .operator op⟩
  cases h with
  | operator _ h => exact h

theorem finishes_rightParen {bracket : Opened} :
    Finishes (bracket :: opened) .behind (.rightParen :: u) ↔ Finishes opened .behind u := by
  refine ⟨fun h => ?_, .close bracket⟩
  cases h with
  | close _ h => exact h

theorem finishes_comma :
    Finishes (.call :: opened) .behind (.comma :: u) ↔ Finishes (.call :: opened) .due u := by
  refine ⟨fun h => ?_, .comma⟩
  cases h with
  | comma h => exact h

mutual

theorem FactorTokens.finishes {w : List Token} : FactorTokens w → ∀ {opened v},
    Finishes opened .behind v → Finishes opened .due (w ++ v)
  | .number text, _, _, hv => .number text hv
  | .name name, _, _, hv => .name name hv
  | .group h, _, _, hv => by
    rw [List.append_assoc]
    exact .group (h.finishes (.close _ hv))
  | .call name h, _, _, hv => by
    rw [List.append_assoc]
    exact .call name (h.finishes (.close _ hv))

theorem TermTokens.finishes {w : List Token} : TermTokens w → ∀ {opened v},
    Finishes opened .behind v → Finishes opened .due (w ++ v)
  | .factor h, _, _, hv => h.finishes hv
  | .chain hl _ hr, _, _, hv => by
    rw [List.append_assoc]
    exact hl.finishes (.operator _ (hr.finishes hv))

theorem SumTokens.finishes {w : List Token} : SumTokens w → ∀ {opened v},
    Finishes opened .behind v → Finishes opened .due (w ++ v)
  | .term h, _, _, hv => h.finishes hv
  | .chain hl _ hr, _, _, hv => by
    rw [List.append_assoc]
    exact hl.finishes (.operator _ (hr.finishes hv))

theorem ArgumentTokens.finishes {w : List Token} : ArgumentTokens w → ∀ {opened v},
    Finishes (.call :: opened) .behind v → Finishes (.call :: opened) .due (w ++ v)
  | .single h, _, _, hv => h.finishes hv
  | .more hes h, _, _, hv => by
    rw [List.append_assoc]
    exact hes.finishes (.comma (h.finishes hv))

end

/-! ## A chain from its first factor -/

theorem TermTokens.prepend {op : Operator} (hv : FactorTokens v) (hop : op = .mul ∨ op = .div) :
    ∀ {w}, TermTokens w → TermTokens (v ++ .operator op :: w)
  | _, .factor h => .chain (.factor hv) hop h
  | _, .chain hl hop' hr => by
    rw [← List.cons_append, ← List.append_assoc]
    exact .chain (hl.prepend hv hop) hop' hr

theorem SumTokens.prepend {op : Operator} (hv : FactorTokens v) :
    ∀ {w}, SumTokens w → SumTokens (v ++ .operator op :: w)
  | _, .term h => by
    cases op with
    | mul => exact .term (h.prepend hv (.inl rfl))
    | div => exact .term (h.prepend hv (.inr rfl))
    | add => exact .chain (.term (.factor hv)) (.inl rfl) h
    | sub => exact .chain (.term (.factor hv)) (.inr rfl) h
  | _, .chain hl hop hr => by
    rw [← List.cons_append, ← List.append_assoc]
    exact .chain (hl.prepend hv) hop hr

theorem ArgumentTokens.prepend (hv : SumTokens v) :
    ∀ {w}, ArgumentTokens w → ArgumentTokens (v ++ .comma :: w)
  | _, .single h => .more (.single hv) h
  | _, .more hes h => by
    rw [← List.cons_append, ← List.append_assoc]
    exact .more (hes.prepend hv) h

/-! ## What a completion is made of -/

/-- The tokens may stand behind the first factor of a chain, to its end. -/
def EndsChain (v : List Token) : Prop :=
  ∀ w, FactorTokens w → SumTokens (w ++ v)

/-- The tokens may stand behind the first expression in the bracket, up to its closing. -/
def Opened.EndsWith (v : List Token) : Opened → Prop
  | group => v = []
  | call => ∀ w, SumTokens w → ArgumentTokens (w ++ v)

/-- The tokens close every bracket that is open and end the statement. -/
def Closes : List Opened → List Token → Prop
  | [], u => u = [.semicolon]
  | bracket :: opened, u => ∃ v w rest, u = v ++ .rightParen :: (w ++ rest) ∧
    bracket.EndsWith v ∧ EndsChain w ∧ Closes opened rest

def Position.Precedes (opened : List Opened) (u : List Token) : Position → Prop
  | due => ∃ v rest, u = v ++ rest ∧ SumTokens v ∧ Closes opened rest
  | behind => ∃ v rest, u = v ++ rest ∧ EndsChain v ∧ Closes opened rest

theorem endsChain_nil : EndsChain [] := by
  intro w hw
  rw [List.append_nil]
  exact .term (.factor hw)

theorem Opened.endsWith_nil (bracket : Opened) : bracket.EndsWith [] := by
  cases bracket with
  | group => rfl
  | call =>
    intro w hw
    rw [List.append_nil]
    exact .single hw

theorem Finishes.precedes (h : Finishes opened position u) :
    position.Precedes opened u := by
  induction h with
  | number text h ih =>
    obtain ⟨v, rest, rfl, hv, hrest⟩ := ih
    exact ⟨.number text :: v, rest, rfl, hv _ (.number text), hrest⟩
  | name name h ih =>
    obtain ⟨v, rest, rfl, hv, hrest⟩ := ih
    exact ⟨.identifier name :: v, rest, rfl, hv _ (.name name), hrest⟩
  | group h ih =>
    -- up to the closing parenthesis it completes the inside, behind it what is around
    obtain ⟨v, _, rfl, hv, _, w, rest, rfl, rfl, hw, hrest⟩ := ih
    refine ⟨.leftParen :: v ++ [.rightParen] ++ w, rest, ?_, hw _ (.group hv), hrest⟩
    simp only [List.nil_append, List.cons_append, List.append_assoc]
  | call name h ih =>
    obtain ⟨v, _, rfl, hv, more, w, rest, rfl, hmore, hw, hrest⟩ := ih
    refine ⟨.identifier name :: .leftParen :: (v ++ more) ++ [.rightParen] ++ w, rest, ?_,
      hw _ (.call name (hmore v hv)), hrest⟩
    simp only [List.nil_append, List.cons_append, List.append_assoc]
  | operator op h ih =>
    obtain ⟨v, rest, rfl, hv, hrest⟩ := ih
    exact ⟨.operator op :: v, rest, rfl, fun w hw => hv.prepend hw, hrest⟩
  | close bracket h ih =>
    obtain ⟨v, rest, rfl, hv, hrest⟩ := ih
    exact ⟨[], _, rfl, endsChain_nil, [], v, rest, rfl, bracket.endsWith_nil, hv, hrest⟩
  | comma h ih =>
    obtain ⟨v, _, rfl, hv, more, w, rest, rfl, hmore, hw, hrest⟩ := ih
    refine ⟨[], _, rfl, endsChain_nil, .comma :: v ++ more, w, rest, ?_, fun first hfirst => ?_, hw,
      hrest⟩
    · simp only [List.cons_append, List.append_assoc]
    · exact (hmore v hv).prepend hfirst
  | done => exact ⟨[], _, rfl, endsChain_nil, rfl⟩

/-- From the start of an expression a completion is an expression and the semicolon. -/
theorem finishes_iff : Finishes [] .due u ↔ ∃ w, SumTokens w ∧ u = w ++ [.semicolon] := by
  constructor
  · intro h
    obtain ⟨w, _, rfl, hw, rfl⟩ := h.precedes
    exact ⟨w, hw, rfl⟩
  · rintro ⟨w, hw, rfl⟩
    exact hw.finishes .done

theorem sentence_iff : Sentence u ↔ Finishes [] .due u ∨
    ∃ name mark v, u = .identifier name :: .assign mark :: v ∧ Finishes [] .due v := by
  constructor
  · rintro ⟨hstatement⟩
    cases hstatement with
    | assign name mark h => exact .inr ⟨name, mark, _, rfl, finishes_iff.2 ⟨_, h, rfl⟩⟩
    | bare h => exact .inl (finishes_iff.2 ⟨_, h, rfl⟩)
  · rintro (h | ⟨name, mark, v, rfl, h⟩)
    · obtain ⟨w, hw, rfl⟩ := finishes_iff.1 h
      exact .statement (.bare hw)
    · obtain ⟨w, hw, rfl⟩ := finishes_iff.1 h
      exact .statement (.assign name mark hw)

theorem sentence_assign {name mark : String} :
    Sentence (.identifier name :: .assign mark :: u) ↔ Finishes [] .due u := by
  rw [sentence_iff]
  constructor
  · rintro (h | ⟨name', mark', v, heq, h⟩)
    · cases h with
      | name _ h => cases h
    · cases heq
      exact h
  · exact fun h => .inr ⟨name, mark, u, rfl, h⟩

end IndicatorFormula.Grammar
