import IndicatorFormula.Proofs.Grammar.Offsets
import IndicatorFormula.Proofs.Grammar.Reads

/-!
The periods and offsets of a text. Its numbers have no sign, so that a call that is read has none
below zero, and a period that is refused as not positive is zero.
-/

namespace IndicatorFormula.Grammar

open IndicatorFormula.Expr (Level Frame Pending)

variable {scope : Scope} {chain : Chain} {stack : List Frame} {place : Place}
  {lexemes : List Lexeme} {f : Builtin} {n : Int} {line : Nat}

def IsNatural (e : Expr) : Prop :=
  ∀ n, e.integerLiteral? = some n → 0 ≤ n

theorem isNatural_pending_close {pending : Option Pending} {e : Expr} (h : IsNatural e) :
    IsNatural (Pending.close pending e) := by
  cases pending with
  | none => exact h
  | some p => exact fun n hn => nomatch hn

theorem isNatural_close {level : Level} {operand : Expr} (h : IsNatural operand) :
    IsNatural (level.close operand) :=
  isNatural_pending_close (isNatural_pending_close h)

theorem isNatural_of_ofName? {name : String} {e : Expr}
    (h : Expr.ofName? scope name line = some e) : IsNatural e := by
  cases isFactor_of_ofName? h with
  | input | symbol => exact fun n hn => nomatch hn

theorem ofCall_eq_nonPositive {g : Builtin} {es : List Expr} {callLine : Nat}
    (h : Expr.ofCall g es callLine = .error (.nonPositiveArgument f n line)) :
    f.needsPositivePeriod = true ∧ n ≤ 0 ∧
      ∃ series period, es = [series, period] ∧ period.integerLiteral? = some n := by
  rcases ofCall_eq_error_cases h with h | h | ⟨series, period, m, rfl, hm, hneeds, hle, h⟩
  · cases h
  · cases h
  · cases h
    exact ⟨hneeds, hle, series, period, rfl, hm⟩

/-- Where an operand has been read, it is no number below zero. -/
def Place.IsNatural : Place → Prop
  | .due _ => True
  | .behind _ operand => Grammar.IsNatural operand

theorem Reads.refused_period {p : Parsed Expr} (h : Reads scope chain stack place lexemes p)
    (hunsigned : Unsigned lexemes) (hplace : place.IsNatural)
    (hp : p.result = .error (.nonPositiveArgument f n line)) :
    f.needsPositivePeriod = true ∧ n = 0 := by
  induction h with
  | nothing | unknownCall | unknownName | unexpected | finish | unclosed | refused => cases hp
  | @number stack level text textLine lexemes p h ih =>
    have htext := hunsigned text textLine (List.mem_cons_self ..)
    exact ih hunsigned.tail (fun m hm => htext.readWord?_nonneg hm) hp
  | openGroup h ih => exact ih hunsigned.tail trivial hp
  | openCall h ih => exact ih hunsigned.tail.tail trivial hp
  | name hcall hname h ih => exact ih hunsigned.tail (isNatural_of_ofName? hname) hp
  | operator hop h ih => exact ih hunsigned.tail trivial hp
  | closeGroup h ih => exact ih hunsigned.tail (isNatural_close hplace) hp
  | @refusedCall stack level outer operand g callLine arguments closeLine lexemes e hcheck =>
    cases hp
    obtain ⟨hneeds, hn, series, period, hes, hperiod⟩ := ofCall_eq_nonPositive hcheck
    -- the period is the operand that the parenthesis closes
    have hlast : [series] ++ [period] = arguments ++ [level.close operand] := hes.symm
    obtain ⟨-, hlast⟩ := List.append_inj' hlast rfl
    obtain rfl := List.singleton_inj.1 hlast
    exact ⟨hneeds, Int.le_antisymm hn (isNatural_close hplace n hperiod)⟩
  | closeCall hes h ih => exact ih hunsigned.tail (fun m hm => nomatch hm) hp
  | comma h ih => exact ih hunsigned.tail trivial hp

theorem refused_period_of_parseWhole (hunsigned : Unsigned lexemes)
    (h : (Statement.parseWhole scope lexemes).result = .error (.nonPositiveArgument f n line)) :
    f.needsPositivePeriod = true ∧ n = 0 := by
  have hwhole := readsWhole_parseWhole scope lexemes
  generalize Statement.parseWhole scope lexemes = p at h hwhole
  cases hwhole with
  | ended | unended | exhausted => cases h
  | @failed e rest hstatement =>
    cases h
    generalize hp : (⟨.error (.nonPositiveArgument f n line), rest⟩ : Parsed Statement) = p
      at hstatement
    cases hstatement with
    | reserved => cases hp
    | assign hname hread =>
      have hresult := map_result_eq_error (congrArg Parsed.result hp).symm
      exact hread.refused_period hunsigned.tail.tail trivial hresult
    | bare hassign hread =>
      have hresult := map_result_eq_error (congrArg Parsed.result hp).symm
      exact hread.refused_period hunsigned trivial hresult

end IndicatorFormula.Grammar
