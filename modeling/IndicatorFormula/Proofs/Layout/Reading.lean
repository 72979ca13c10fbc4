import IndicatorFormula.Proofs.Grammar.Reads
import IndicatorFormula.Proofs.Layout

/-!
Reading respects layout: where the lexemes are laid out anew, the same is read from them, laid out
anew (`parseWhole_relayout`).
-/

namespace IndicatorFormula

open IndicatorFormula.Expr (Level Bracket Frame Pending)

variable (r : Relayout)

namespace Expr

def Pending.relayout (p : Pending) : Pending :=
  ⟨p.left.relayout r, p.operator, r.line p.line⟩

def Level.relayout (level : Level) : Level :=
  ⟨level.sum.map (Pending.relayout r), level.product.map (Pending.relayout r)⟩

def Bracket.relayout : Bracket → Bracket
  | group => group
  | call f line arguments => call f (r.line line) (arguments.map (Expr.relayout r))

def Frame.relayout (frame : Frame) : Frame :=
  ⟨frame.bracket.relayout r, frame.outer.relayout r⟩

theorem pending_close_relayout (pending : Option Pending) (e : Expr) :
    (Pending.close pending e).relayout r =
      Pending.close (pending.map (Pending.relayout r)) (e.relayout r) := by
  cases pending with
  | none => rfl
  | some p => simp only [Pending.close, relayout, Option.map_some, Pending.relayout]

theorem close_relayout (level : Level) (operand : Expr) :
    (level.close operand).relayout r = (level.relayout r).close (operand.relayout r) := by
  rw [Level.close, pending_close_relayout, pending_close_relayout]
  rfl

/-- The arguments of a call, the one that was just read included. -/
theorem arguments_relayout (es : List Expr) (level : Level) (operand : Expr) :
    (es ++ [level.close operand]).map (relayout r) =
      es.map (relayout r) ++ [(level.relayout r).close (operand.relayout r)] := by
  rw [List.map_append, List.map_singleton, close_relayout]

theorem push_relayout (level : Level) (operand : Expr) (op : Operator) (line : Nat) :
    (level.push operand op line).relayout r =
      (level.relayout r).push (operand.relayout r) op (r.line line) := by
  have hproduct := pending_close_relayout r level.product operand
  have hsum := close_relayout r level operand
  cases op <;>
    simp only [Level.push, Level.relayout, Option.map_some, Option.map_none, Pending.relayout,
      hproduct, hsum]

@[simp] theorem expectation_relayout (bracket : Bracket) :
    (bracket.relayout r).expectation = bracket.expectation := by
  cases bracket <;> rfl

theorem ofName?_relayout (scope : Scope) (name : String) (line : Nat) :
    ofName? (scope.relayout r) name (r.line line) =
      (ofName? scope name line).map (relayout r) := by
  unfold ofName? Scope.relayout
  split
  · rfl
  · split <;> rfl

theorem ofCall_relayout (f : Builtin) (es : List Expr) (line : Nat) :
    ofCall f (es.map (relayout r)) (r.line line) =
      ((ofCall f es line).map (relayout r)).mapError (SyntaxError.relayout r) := by
  unfold ofCall
  split
  · match es with
    | [series, period] =>
      simp only [List.map_cons, List.map_nil, integerLiteral?_relayout]
      split
      · rfl
      · split
        · rfl
        · exact congrArg Except.ok (relayout_call r f [series, period] line).symm
    | [] | [_] | _ :: _ :: _ :: _ =>
      simp only [List.map_cons, List.map_nil, List.length_cons, List.length_nil, List.length_map]
      rfl
  · exact congrArg Except.ok (relayout_call ..).symm

end Expr

namespace Grammar

def Place.relayout : Place → Place
  | due level => due (level.relayout r)
  | behind level operand => behind (level.relayout r) (operand.relayout r)

theorem admits_relayout {f : Builtin} {es : List Expr} (h : Admits f es) :
    Admits f (es.map (Expr.relayout r)) := by
  intro hf
  obtain ⟨series, text, line, n, rfl, hn, hpositive⟩ := h hf
  exact ⟨series.relayout r, text, r.line line, n, rfl, hn, hpositive⟩

theorem innermost_relayout (chain : Chain) (stack : List Frame) :
    innermost chain (stack.map (Frame.relayout r)) = innermost chain stack := by
  simp only [innermost, List.isEmpty_map]

theorem beginsOperand_relayout {token : Token} :
    BeginsOperand (token.relayout r) ↔ BeginsOperand token := by
  cases token <;> exact Iff.rfl

theorem takes_relayout {bracket : Bracket} {token : Token} :
    Takes (bracket.relayout r) (token.relayout r) ↔ Takes bracket token := by
  cases bracket <;> cases token <;> exact Iff.rfl

/-- A token that is no assignment mark stands first only where it stood first before. -/
theorem not_mem_head?_relayout {token : Token} (htoken : ∀ mark, token ≠ .assign mark)
    {lexemes : List Lexeme} (h : ∀ line, ⟨token, line⟩ ∉ lexemes.head?) (line : Nat) :
    ⟨token, line⟩ ∉ (lexemes.map (Lexeme.relayout r)).head? := by
  intro hmem
  cases lexemes with
  | nil => cases hmem
  | cons lexeme lexemes =>
    obtain ⟨first, firstLine⟩ := lexeme
    refine h firstLine ?_
    have hfirst : first.relayout r = token := congrArg Lexeme.token (Option.some.inj hmem)
    cases first with
    | assign mark => exact absurd hfirst.symm (htoken _)
    | _ =>
      cases hfirst
      rfl

theorem Reads.relayout {scope : Scope} {chain : Chain} {stack : List Frame} {place : Place}
    {lexemes : List Lexeme} {p : Parsed Expr} (h : Reads scope chain stack place lexemes p) :
    Reads (scope.relayout r) chain (stack.map (Frame.relayout r)) (place.relayout r)
      (lexemes.map (Lexeme.relayout r)) (p.relayout r (Expr.relayout r)) := by
  induction h with
  | nothing => exact .nothing
  | number h ih => exact .number ih
  | openGroup h ih => exact .openGroup ih
  | unknownCall hname => exact .unknownCall hname
  | openCall h ih => exact .openCall ih
  | unknownName hcall hname =>
    refine .unknownName (not_mem_head?_relayout r (by rintro mark ⟨⟩) hcall) ?_
    rw [Expr.ofName?_relayout, hname]
    rfl
  | name hcall hname h ih =>
    refine .name (not_mem_head?_relayout r (by rintro mark ⟨⟩) hcall) ?_ ih
    rw [Expr.ofName?_relayout, hname]
    rfl
  | unexpected htoken => exact .unexpected fun h => htoken ((beginsOperand_relayout r).1 h)
  | @finish level operand lexemes hop =>
    have hvalue : (⟨.ok (level.close operand), lexemes⟩ : Parsed Expr).relayout r
        (Expr.relayout r) = ⟨.ok ((level.relayout r).close (operand.relayout r)),
          lexemes.map (Lexeme.relayout r)⟩ := by
      rw [← Expr.close_relayout]
      rfl
    rw [hvalue]
    exact .finish fun op hmem => not_mem_head?_relayout r (by rintro mark ⟨⟩) (hop op hmem)
  | @unclosed frame stack level operand =>
    have hread : Reads (scope.relayout r) chain ((frame :: stack).map (Frame.relayout r))
        (.behind (level.relayout r) (operand.relayout r)) []
        ⟨.error (.expectedToken (frame.bracket.relayout r).expectation none
          (r.line scope.endLine)), []⟩ := .unclosed
    -- the bracket is of the same kind in any layout, and expects the same
    rwa [Expr.expectation_relayout] at hread
  | @operator stack level operand op line lexemes p hop h ih =>
    refine .operator (by rwa [innermost_relayout]) ?_
    rw [← Expr.push_relayout]
    exact ih
  | closeGroup h ih =>
    refine .closeGroup ?_
    rw [← Expr.close_relayout]
    exact ih
  | @refusedCall stack level outer operand f callLine es line lexemes e hcheck =>
    refine .refusedCall ?_
    rw [← Expr.arguments_relayout, Expr.ofCall_relayout, hcheck]
    rfl
  | @closeCall stack level outer operand f callLine es line lexemes p hes h ih =>
    refine .closeCall ?_ ?_
    · rw [← Expr.arguments_relayout]
      exact admits_relayout r hes
    · rw [← Expr.arguments_relayout, ← Expr.relayout_call]
      exact ih
  | @comma stack level outer operand f callLine es line lexemes p h ih =>
    refine .comma ?_
    rw [← Expr.arguments_relayout]
    exact ih
  | @refused frame stack level operand token line lexemes htoken =>
    have hread : Reads (scope.relayout r) chain ((frame :: stack).map (Frame.relayout r))
        (.behind (level.relayout r) (operand.relayout r))
        ((⟨token, line⟩ :: lexemes).map (Lexeme.relayout r))
        ⟨.error (.expectedToken (frame.bracket.relayout r).expectation
          (some (token.relayout r)) (r.line line)), lexemes.map (Lexeme.relayout r)⟩ :=
      .refused fun h => htoken ((takes_relayout r).1 h)
    rwa [Expr.expectation_relayout] at hread

theorem marksAssignment_relayout {lexemes : List Lexeme} :
    MarksAssignment (lexemes.map (Lexeme.relayout r)) ↔ MarksAssignment lexemes := by
  constructor
  · rintro ⟨name, line, mark, markLine, rest, h⟩
    obtain ⟨first, lexemes, rfl, hfirst, h⟩ := List.map_eq_cons_iff.1 h
    obtain ⟨second, lexemes, rfl, hsecond, -⟩ := List.map_eq_cons_iff.1 h
    obtain ⟨token, firstLine⟩ := first
    obtain ⟨token', secondLine⟩ := second
    have htoken : token.relayout r = .identifier name := congrArg Lexeme.token hfirst
    have htoken' : token'.relayout r = .assign mark := congrArg Lexeme.token hsecond
    cases token <;> cases htoken
    cases token' <;> cases htoken'
    exact ⟨_, _, _, _, _, rfl⟩
  · rintro ⟨name, line, mark, markLine, rest, rfl⟩
    exact ⟨_, _, _, _, _, rfl⟩

theorem map_relayout {p : Parsed Expr} {f g : Expr → Statement}
    (h : ∀ e, g (e.relayout r) = (f e).relayout r) :
    (⟨(p.relayout r (Expr.relayout r)).result.map g, (p.relayout r (Expr.relayout r)).rest⟩ :
        Parsed Statement) =
      (⟨p.result.map f, p.rest⟩ : Parsed Statement).relayout r (Statement.relayout r) := by
  obtain ⟨result, rest⟩ := p
  cases result with
  | error e => rfl
  | ok e =>
    exact congrArg (fun s => (⟨.ok s, rest.map (Lexeme.relayout r)⟩ : Parsed Statement)) (h e)

theorem ReadsStatement.relayout {scope : Scope} {lexemes : List Lexeme} {p : Parsed Statement}
    (h : ReadsStatement scope lexemes p) :
    ReadsStatement (scope.relayout r) (lexemes.map (Lexeme.relayout r))
      (p.relayout r (Statement.relayout r)) := by
  cases h with
  | reserved hname => exact .reserved hname
  | @assign name mark line markLine rest p hname h =>
    rw [← map_relayout r (g := (.assign name · (r.line line))) fun _ => rfl]
    exact .assign hname (h.relayout r)
  | @bare _ p hassign h =>
    have hline : ((lexemes.map (Lexeme.relayout r)).head?.map Lexeme.line).getD
        (scope.relayout r).endLine =
          r.line ((lexemes.head?.map Lexeme.line).getD scope.endLine) := by
      cases lexemes <;> rfl
    rw [← map_relayout r (g := (.bare · _)) fun _ => rfl, ← hline]
    exact .bare (fun h => hassign ((marksAssignment_relayout r).1 h)) (h.relayout r)

theorem ReadsWhole.relayout {scope : Scope} {lexemes : List Lexeme} {p : Parsed Statement}
    (h : ReadsWhole scope lexemes p) :
    ReadsWhole (scope.relayout r) (lexemes.map (Lexeme.relayout r))
      (p.relayout r (Statement.relayout r)) := by
  cases h with
  | failed h => exact .failed (h.relayout r)
  | ended h => exact .ended (h.relayout r)
  | @unended s token line rest h htoken =>
    refine .unended (h.relayout r) ?_
    cases token with
    | semicolon => exact absurd rfl htoken
    | _ => exact fun h => nomatch h
  | exhausted h => exact .exhausted (h.relayout r)

theorem parseWhole_relayout (scope : Scope) (lexemes : List Lexeme) :
    Statement.parseWhole (scope.relayout r) (lexemes.map (Lexeme.relayout r)) =
      (Statement.parseWhole scope lexemes).relayout r (Statement.relayout r) :=
  ((readsWhole_parseWhole scope lexemes).relayout r).eq

theorem parseWhole_relayout_of_error {scope : Scope} {lexemes : List Lexeme} {e : SyntaxError}
    (he : (Statement.parseWhole scope lexemes).result = .error e) :
    (Statement.parseWhole (scope.relayout r) (lexemes.map (Lexeme.relayout r))).result =
      .error (e.relayout r) := by
  rw [parseWhole_relayout, Parsed.relayout, he]
  rfl

theorem parseWhole_relayout_of_ok {scope : Scope} {lexemes : List Lexeme} {s : Statement}
    (hs : (Statement.parseWhole scope lexemes).result = .ok s) :
    (Statement.parseWhole (scope.relayout r) (lexemes.map (Lexeme.relayout r))).result =
      .ok (s.relayout r) := by
  rw [parseWhole_relayout, Parsed.relayout, hs]
  rfl

end Grammar

end IndicatorFormula
