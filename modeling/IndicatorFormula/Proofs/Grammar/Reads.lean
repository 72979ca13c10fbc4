import IndicatorFormula.Proofs.Grammar.Steps

/-!
Reading as a relation, with one rule for each step. `Reads` relates the place of a reader and the
lexemes there to what it makes of them, and holds of exactly that (`reads_iff`): a fact about
reading is an induction whose cases are the steps. `ReadsStatement` and `ReadsWhole` do the same
for a statement, without its semicolon and with it.
-/

namespace IndicatorFormula.Grammar

open IndicatorFormula.Expr (Level Bracket Frame parseOperand parseAfter)

/-- Where a reader stands: where an operand is due, or behind one. -/
inductive Place
  | due (level : Level)
  | behind (level : Level) (operand : Expr)

def BeginsOperand : Token → Prop
  | .number _ | .identifier _ | .leftParen => True
  | .operator _ | .comma | .comparison _ | .assign _ | .rightParen | .semicolon => False

/-- The tokens that may stand behind an operand in the bracket. -/
def Takes : Bracket → Token → Prop
  | _, .operator _ | _, .rightParen | .call .., .comma => True
  | _, _ => False

inductive Reads (scope : Scope) (chain : Chain) :
    List Frame → Place → List Lexeme → Parsed Expr → Prop
  | nothing {stack : List Frame} {level : Level} :
    Reads scope chain stack (.due level) [] ⟨.error (.unexpectedEnd scope.endLine), []⟩
  | number {stack : List Frame} {level : Level} {text : String} {line : Nat}
    {lexemes : List Lexeme} {p : Parsed Expr}
    (h : Reads scope chain stack (.behind level (.number text line)) lexemes p) :
    Reads scope chain stack (.due level) (⟨.number text, line⟩ :: lexemes) p
  | openGroup {stack : List Frame} {level : Level} {line : Nat} {lexemes : List Lexeme}
    {p : Parsed Expr}
    (h : Reads scope chain (⟨.group, level⟩ :: stack) (.due .empty) lexemes p) :
    Reads scope chain stack (.due level) (⟨.leftParen, line⟩ :: lexemes) p
  | unknownCall {stack : List Frame} {level : Level} {name : String} {line openLine : Nat}
    {lexemes : List Lexeme} (hname : Builtin.ofName? name = none) :
    Reads scope chain stack (.due level)
      (⟨.identifier name, line⟩ :: ⟨.leftParen, openLine⟩ :: lexemes)
      ⟨.error (.undefinedName name line), lexemes⟩
  | openCall {stack : List Frame} {level : Level} {f : Builtin} {line openLine : Nat}
    {lexemes : List Lexeme} {p : Parsed Expr}
    (h : Reads scope chain (⟨.call f line [], level⟩ :: stack) (.due .empty) lexemes p) :
    Reads scope chain stack (.due level)
      (⟨.identifier f.name, line⟩ :: ⟨.leftParen, openLine⟩ :: lexemes) p
  | unknownName {stack : List Frame} {level : Level} {name : String} {line : Nat}
    {lexemes : List Lexeme} (hcall : ∀ openLine, ⟨.leftParen, openLine⟩ ∉ lexemes.head?)
    (hname : Expr.ofName? scope name line = none) :
    Reads scope chain stack (.due level) (⟨.identifier name, line⟩ :: lexemes)
      ⟨.error (.undefinedName name line), lexemes⟩
  | name {stack : List Frame} {level : Level} {name : String} {line : Nat} {value : Expr}
    {lexemes : List Lexeme} {p : Parsed Expr}
    (hcall : ∀ openLine, ⟨.leftParen, openLine⟩ ∉ lexemes.head?)
    (hname : Expr.ofName? scope name line = some value)
    (h : Reads scope chain stack (.behind level value) lexemes p) :
    Reads scope chain stack (.due level) (⟨.identifier name, line⟩ :: lexemes) p
  | unexpected {stack : List Frame} {level : Level} {token : Token} {line : Nat}
    {lexemes : List Lexeme} (htoken : ¬BeginsOperand token) :
    Reads scope chain stack (.due level) (⟨token, line⟩ :: lexemes)
      ⟨.error (.unexpectedToken token line), lexemes⟩
  | finish {level : Level} {operand : Expr} {lexemes : List Lexeme}
    (hop : ∀ op ∈ operators chain, ∀ line, ⟨.operator op, line⟩ ∉ lexemes.head?) :
    Reads scope chain [] (.behind level operand) lexemes ⟨.ok (level.close operand), lexemes⟩
  | unclosed {frame : Frame} {stack : List Frame} {level : Level} {operand : Expr} :
    Reads scope chain (frame :: stack) (.behind level operand) []
      ⟨.error (.expectedToken frame.bracket.expectation none scope.endLine), []⟩
  | operator {stack : List Frame} {level : Level} {operand : Expr} {op : Operator} {line : Nat}
    {lexemes : List Lexeme} {p : Parsed Expr} (hop : op ∈ operators (innermost chain stack))
    (h : Reads scope chain stack (.due (level.push operand op line)) lexemes p) :
    Reads scope chain stack (.behind level operand) (⟨.operator op, line⟩ :: lexemes) p
  | closeGroup {stack : List Frame} {level outer : Level} {operand : Expr} {line : Nat}
    {lexemes : List Lexeme} {p : Parsed Expr}
    (h : Reads scope chain stack (.behind outer (level.close operand)) lexemes p) :
    Reads scope chain (⟨.group, outer⟩ :: stack) (.behind level operand)
      (⟨.rightParen, line⟩ :: lexemes) p
  | refusedCall {stack : List Frame} {level outer : Level} {operand : Expr} {f : Builtin}
    {callLine : Nat} {arguments : List Expr} {line : Nat} {lexemes : List Lexeme} {e : SyntaxError}
    (hcheck : Expr.ofCall f (arguments ++ [level.close operand]) callLine = .error e) :
    Reads scope chain (⟨.call f callLine arguments, outer⟩ :: stack) (.behind level operand)
      (⟨.rightParen, line⟩ :: lexemes) ⟨.error e, lexemes⟩
  | closeCall {stack : List Frame} {level outer : Level} {operand : Expr} {f : Builtin}
    {callLine : Nat} {arguments : List Expr} {line : Nat} {lexemes : List Lexeme}
    {p : Parsed Expr} (hes : Admits f (arguments ++ [level.close operand]))
    (h : Reads scope chain stack
      (.behind outer (.call f (arguments ++ [level.close operand]) callLine)) lexemes p) :
    Reads scope chain (⟨.call f callLine arguments, outer⟩ :: stack) (.behind level operand)
      (⟨.rightParen, line⟩ :: lexemes) p
  | comma {stack : List Frame} {level outer : Level} {operand : Expr} {f : Builtin}
    {callLine : Nat} {arguments : List Expr} {line : Nat} {lexemes : List Lexeme}
    {p : Parsed Expr}
    (h : Reads scope chain
      (⟨.call f callLine (arguments ++ [level.close operand]), outer⟩ :: stack) (.due .empty)
      lexemes p) :
    Reads scope chain (⟨.call f callLine arguments, outer⟩ :: stack) (.behind level operand)
      (⟨.comma, line⟩ :: lexemes) p
  | refused {frame : Frame} {stack : List Frame} {level : Level} {operand : Expr} {token : Token}
    {line : Nat} {lexemes : List Lexeme} (htoken : ¬Takes frame.bracket token) :
    Reads scope chain (frame :: stack) (.behind level operand) (⟨token, line⟩ :: lexemes)
      ⟨.error (.expectedToken frame.bracket.expectation (some token) line), lexemes⟩

/-- What the reader makes of the lexemes at a place. -/
def read (scope : Scope) (chain : Chain) (stack : List Frame) (place : Place)
    (lexemes : List Lexeme) : Parsed Expr :=
  match place with
  | .due level => parseOperand scope chain stack level lexemes
  | .behind level operand => parseAfter scope chain stack level operand lexemes

variable {scope : Scope} {chain : Chain} {stack : List Frame} {place : Place}
  {lexemes : List Lexeme} {p : Parsed Expr}

theorem forall_not_mem_head?_iff {token : Token} :
    (∀ line, ⟨token, line⟩ ∉ lexemes.head?) ↔
      ∀ line tail, lexemes = ⟨token, line⟩ :: tail → False := by
  simp only [Option.mem_def, List.head?_eq_some_iff, not_exists]

/-- The three ways a bracket can admit a token, as reading tells them apart. -/
theorem not_takes_iff {frame : Frame} {token : Token} : ¬Takes frame.bracket token ↔
    (∀ op, token ≠ .operator op) ∧ (∀ outer, token = .rightParen → frame ≠ ⟨.group, outer⟩) ∧
      (∀ f line es outer, token = .rightParen → frame ≠ ⟨.call f line es, outer⟩) ∧
        ∀ f line es outer, token = .comma → frame ≠ ⟨.call f line es, outer⟩ := by
  constructor
  · refine fun h => ⟨?_, ?_, ?_, ?_⟩
    · rintro op rfl
      exact h trivial
    · rintro outer rfl rfl
      exact h trivial
    · rintro f line es outer rfl rfl
      exact h trivial
    · rintro f line es outer rfl rfl
      exact h trivial
  · rintro ⟨hop, hgroup, hclose, hcomma⟩ htakes
    obtain ⟨_ | ⟨f, line, es⟩, outer⟩ := frame
    · cases token with
      | operator op => exact hop op rfl
      | rightParen => exact hgroup outer rfl rfl
      | _ => exact htakes
    · cases token with
      | operator op => exact hop op rfl
      | rightParen => exact hclose f line es outer rfl rfl
      | comma => exact hcomma f line es outer rfl rfl
      | _ => exact htakes

theorem reads_steps (scope : Scope) (chain : Chain) :
    (∀ stack level lexemes, Reads scope chain stack (.due level) lexemes
      (parseOperand scope chain stack level lexemes)) ∧
    ∀ stack level operand lexemes, Reads scope chain stack (.behind level operand) lexemes
      (parseAfter scope chain stack level operand lexemes) := by
  -- one case for each alternative of the reader, with the tests that led to it as hypotheses
  apply Expr.parseOperand.mutual_induct scope chain
    (fun stack level lexemes => Reads scope chain stack (.due level) lexemes
      (parseOperand scope chain stack level lexemes))
    (fun stack level operand lexemes => Reads scope chain stack (.behind level operand) lexemes
      (parseAfter scope chain stack level operand lexemes))
  case case1 =>
    intro stack level
    exact .nothing
  case case2 =>
    intro stack level text line lexemes ih
    exact .number ih
  case case3 =>
    intro stack level openLine lexemes ih
    exact .openGroup ih
  case case4 =>
    intro stack level name line openLine lexemes hname
    simp only [parseOperand, hname]
    exact .unknownCall hname
  case case5 =>
    intro stack level name line openLine lexemes f hname ih
    simp only [parseOperand, hname]
    obtain rfl := Builtin.name_of_ofName? hname
    exact .openCall ih
  case case6 =>
    intro stack level name line lexemes hcall hvalue
    simp only [parseOperand_name hcall, hvalue]
    exact .unknownName (forall_not_mem_head?_iff.2 hcall) hvalue
  case case7 =>
    intro stack level name line lexemes hcall value hvalue ih
    simp only [parseOperand_name hcall, hvalue]
    exact .name (forall_not_mem_head?_iff.2 hcall) hvalue ih
  case case8 =>
    intro stack level token line lexemes hnumber hparen _ hname
    rw [parseOperand_unexpected hnumber hname hparen]
    refine .unexpected ?_
    cases token with
    | number text => exact absurd rfl (hnumber text)
    | identifier name => exact absurd rfl (hname name)
    | leftParen => exact absurd rfl hparen
    | _ => exact id
  case case9 =>
    intro level operand
    exact .finish fun _ _ _ hmem => nomatch hmem
  case case10 =>
    intro level operand frame stack
    exact .unclosed
  case case11 =>
    intro level operand line lexemes op stack hop ih
    rw [parseAfter_operator (continues_iff.1 hop)]
    exact .operator (continues_iff.1 hop) ih
  case case12 =>
    intro level operand line lexemes op stack hop
    -- only outside all brackets does an operator end an expression
    obtain rfl := eq_nil_of_not_continues hop
    simp only [parseAfter, hop]
    refine .finish fun op' hop' line' hmem => ?_
    cases hmem
    exact hop (continues_iff.2 hop')
  case case13 =>
    intro level operand line lexemes outer stack ih
    exact .closeGroup ih
  case case14 =>
    intro level operand line lexemes f callLine es outer stack error hcheck
    simp only [parseAfter, hcheck]
    exact .refusedCall hcheck
  case case15 =>
    intro level operand line lexemes f callLine es outer stack value hcheck ih
    simp only [parseAfter, hcheck]
    obtain ⟨rfl, hes⟩ := admits_of_ofCall hcheck
    exact .closeCall hes ih
  case case16 =>
    intro level operand line lexemes f callLine es outer stack ih
    exact .comma ih
  case case17 =>
    intro level operand line lexemes token frame stack hop hgroup hclose hcomma
    rw [parseAfter_refused hop hgroup hclose hcomma]
    exact .refused (not_takes_iff.2 ⟨hop, hgroup, hclose, hcomma⟩)
  case case18 =>
    intro level operand line lexemes token hop
    rw [parseAfter_stop fun op _ => operator_not_mem_head? hop op]
    exact .finish fun op _ => operator_not_mem_head? hop op

theorem Reads.eq (h : Reads scope chain stack place lexemes p) :
    read scope chain stack place lexemes = p := by
  -- each rule takes what one alternative of the reader takes
  induction h with
  | nothing => rfl
  | number h ih => exact ih
  | openGroup h ih => exact ih
  | unknownCall hname =>
    simp only [read, parseOperand, hname]
  | openCall h ih =>
    simp only [read, parseOperand, Builtin.ofName?_name]
    exact ih
  | unknownName hcall hname =>
    rw [read, parseOperand_name (forall_not_mem_head?_iff.1 hcall), hname]
  | name hcall hname h ih =>
    rw [read, parseOperand_name (forall_not_mem_head?_iff.1 hcall), hname]
    exact ih
  | @unexpected stack level token line lexemes htoken =>
    refine parseOperand_unexpected ?_ ?_ ?_
    · rintro text rfl
      exact htoken trivial
    · rintro name rfl
      exact htoken trivial
    · rintro rfl
      exact htoken trivial
  | finish hop => exact parseAfter_stop hop
  | unclosed => rfl
  | operator hop h ih => exact (parseAfter_operator hop).trans ih
  | closeGroup h ih => exact ih
  | refusedCall hcheck => simp only [read, parseAfter, hcheck]
  | closeCall hes h ih =>
    simp only [read, parseAfter, ofCall_of_admits hes]
    exact ih
  | comma h ih => exact ih
  | refused htoken =>
    obtain ⟨hop, hgroup, hclose, hcomma⟩ := not_takes_iff.1 htoken
    exact parseAfter_refused hop hgroup hclose hcomma

theorem reads_iff : Reads scope chain stack place lexemes p ↔
    read scope chain stack place lexemes = p := by
  refine ⟨Reads.eq, ?_⟩
  rintro rfl
  cases place with
  | due level => exact (reads_steps scope chain).1 stack level lexemes
  | behind level operand => exact (reads_steps scope chain).2 stack level operand lexemes

theorem reads_parse (scope : Scope) (chain : Chain) (lexemes : List Lexeme) :
    Reads scope chain [] (.due .empty) lexemes (Expr.parse scope chain lexemes) :=
  reads_iff.2 rfl

theorem parse_of_reads (h : Reads scope chain [] (.due .empty) lexemes p) :
    Expr.parse scope chain lexemes = p :=
  h.eq

/-! ## Statements -/

def MarksAssignment (lexemes : List Lexeme) : Prop :=
  ∃ name line mark markLine rest,
    lexemes = ⟨.identifier name, line⟩ :: ⟨.assign mark, markLine⟩ :: rest

inductive ReadsStatement (scope : Scope) : List Lexeme → Parsed Statement → Prop
  | reserved {name mark : String} {line markLine : Nat} {rest : List Lexeme}
    (hname : isReserved name = true) :
    ReadsStatement scope (⟨.identifier name, line⟩ :: ⟨.assign mark, markLine⟩ :: rest)
      ⟨.error (.reservedName name line),
        ⟨.identifier name, line⟩ :: ⟨.assign mark, markLine⟩ :: rest⟩
  | assign {name mark : String} {line markLine : Nat} {rest : List Lexeme} {p : Parsed Expr}
    (hname : isReserved name = false) (h : Reads scope .sum [] (.due .empty) rest p) :
    ReadsStatement scope (⟨.identifier name, line⟩ :: ⟨.assign mark, markLine⟩ :: rest)
      ⟨p.result.map (.assign name · line), p.rest⟩
  | bare {lexemes : List Lexeme} {p : Parsed Expr} (hassign : ¬MarksAssignment lexemes)
    (h : Reads scope .sum [] (.due .empty) lexemes p) :
    ReadsStatement scope lexemes
      ⟨p.result.map (.bare · ((lexemes.head?.map Lexeme.line).getD scope.endLine)), p.rest⟩

inductive ReadsWhole (scope : Scope) (lexemes : List Lexeme) : Parsed Statement → Prop
  | failed {e : SyntaxError} {rest : List Lexeme}
    (h : ReadsStatement scope lexemes ⟨.error e, rest⟩) : ReadsWhole scope lexemes ⟨.error e, rest⟩
  | ended {s : Statement} {line : Nat} {rest : List Lexeme}
    (h : ReadsStatement scope lexemes ⟨.ok s, ⟨.semicolon, line⟩ :: rest⟩) :
    ReadsWhole scope lexemes ⟨.ok s, rest⟩
  | unended {s : Statement} {token : Token} {line : Nat} {rest : List Lexeme}
    (h : ReadsStatement scope lexemes ⟨.ok s, ⟨token, line⟩ :: rest⟩)
    (htoken : token ≠ .semicolon) :
    ReadsWhole scope lexemes ⟨.error (.missingSemicolon (some token) line), rest⟩
  | exhausted {s : Statement} (h : ReadsStatement scope lexemes ⟨.ok s, []⟩) :
    ReadsWhole scope lexemes ⟨.error (.missingSemicolon none scope.endLine), []⟩

theorem map_result_eq_error {ε α β : Type} {result : Except ε α} {g : α → β} {e : ε}
    (h : result.map g = .error e) : result = .error e := by
  cases result with
  | error e' => exact congrArg _ (Except.error.inj h)
  | ok a => cases h

theorem readsStatement_parse (scope : Scope) (lexemes : List Lexeme) :
    ReadsStatement scope lexemes (Statement.parse scope lexemes) := by
  unfold Statement.parse
  split
  · next name line mark markLine rest =>
    split
    · next hname => exact .reserved hname
    · next hname => exact .assign (Bool.not_eq_true _ ▸ hname) (reads_parse ..)
  · next hassign =>
    refine .bare ?_ (reads_parse ..)
    rintro ⟨name, line, mark, markLine, rest, rfl⟩
    exact hassign _ _ _ _ _ rfl

theorem ReadsStatement.eq {p : Parsed Statement} (h : ReadsStatement scope lexemes p) :
    Statement.parse scope lexemes = p := by
  cases h with
  | reserved hname => simp only [Statement.parse, hname, if_true]
  | assign hname h =>
    simp only [Statement.parse, hname, Bool.false_eq_true, if_false, parse_of_reads h]
  | bare hassign h =>
    unfold Statement.parse
    split
    · exact absurd ⟨_, _, _, _, _, rfl⟩ hassign
    · simp only [parse_of_reads h]

theorem readsWhole_parseWhole (scope : Scope) (lexemes : List Lexeme) :
    ReadsWhole scope lexemes (Statement.parseWhole scope lexemes) := by
  have hstatement := readsStatement_parse scope lexemes
  unfold Statement.parseWhole
  generalize Statement.parse scope lexemes = p at hstatement ⊢
  obtain ⟨_ | s, rest⟩ := p
  · exact .failed hstatement
  · cases rest with
    | nil => exact .exhausted hstatement
    | cons lexeme rest =>
      obtain ⟨token, line⟩ := lexeme
      cases token with
      | semicolon => exact .ended hstatement
      | _ => exact .unended hstatement fun h => nomatch h

theorem ReadsWhole.eq {p : Parsed Statement} (h : ReadsWhole scope lexemes p) :
    Statement.parseWhole scope lexemes = p := by
  cases h with
  | failed h => simp only [Statement.parseWhole, h.eq]
  | ended h =>
    simp only [Statement.parseWhole, h.eq, Statement.parseEnd]
    rfl
  | @unended s token line rest h htoken =>
    simp only [Statement.parseWhole, h.eq]
    cases token with
    | semicolon => exact absurd rfl htoken
    | _ => rfl
  | exhausted h =>
    simp only [Statement.parseWhole, h.eq, Statement.parseEnd]
    rfl

end IndicatorFormula.Grammar
