import IndicatorFormula.Proofs.Evaluation.Length
import IndicatorFormula.Proofs.Series.Order
import IndicatorFormula.Proofs.Series.Prefix

/-!
Missing points stay missing. An operator gives a missing point where either operand has one, and a
lag where its source has one or is no index. From the root of an expression a path of operators and
lags, at an index that the lags shift, comes to points of its numbers, inputs and symbols: where one
of these is missing, so is the point it started from (`Expr.evaluate_missing`).
-/

namespace IndicatorFormula

open Float.Model (UnpackedFloat)

namespace Operator

variable {x y : Float}

theorem apply_missing_left (op : Operator) (y : Float) :
    op.apply Series.missing y = Series.missing := by
  cases op <;> rfl

theorem apply_missing_right (op : Operator) (x : Float) :
    op.apply x Series.missing = Series.missing := by
  -- the left operand is looked at first, and only a missing one decides
  cases op with
  | add =>
    show Float.ofModel (.pack (UnpackedFloat.add .binary64 x.toModel.unpack .notANumber)) = _
    cases x.toModel.unpack <;> rfl
  | sub =>
    show Float.ofModel (.pack (UnpackedFloat.sub .binary64 x.toModel.unpack .notANumber)) = _
    cases x.toModel.unpack <;> rfl
  | mul =>
    show Float.ofModel (.pack (UnpackedFloat.mul .binary64 x.toModel.unpack .notANumber)) = _
    cases x.toModel.unpack <;> rfl
  | div =>
    show Float.ofModel (.pack (UnpackedFloat.div .binary64 x.toModel.unpack .notANumber)) = _
    cases x.toModel.unpack <;> rfl

theorem isNaN_apply (op : Operator) (h : x.isNaN = true ∨ y.isNaN = true) :
    (op.apply x y).isNaN = true := by
  have hmissing : Series.missing.isNaN = true := by decide
  rcases h with hx | hy
  · rwa [Series.eq_of_isNaN hx hmissing, apply_missing_left]
  · rwa [Series.eq_of_isNaN hy hmissing, apply_missing_right]

end Operator

namespace Series

variable {s l r : Series} {i j : Nat} {offset : Int}

def IsMissingAt (s : Series) (i : Nat) : Prop :=
  ∃ x, s[i]? = some x ∧ x.isNaN = true

theorem IsMissingAt.lt_length (h : s.IsMissingAt i) : i < s.length := by
  obtain ⟨x, hx, -⟩ := h
  exact (List.getElem?_eq_some_iff.1 hx).1

theorem isMissingAt_constant {n : Nat} {x : Float} (hx : x.isNaN = true) (hi : i < n) :
    (constant n x).IsMissingAt i :=
  ⟨x, List.getElem?_replicate_of_lt hi, hx⟩

theorem isMissingAt_combine {op : Operator} {line : Nat} (hs : combine op line l r = .ok s)
    (h : l.IsMissingAt i ∨ r.IsMissingAt i) : s.IsMissingAt i := by
  obtain ⟨hlength, -, rfl⟩ := combine_eq_ok_iff.1 hs
  have hi : i < l.length ∧ i < r.length := by
    rcases h with h | h
    · exact ⟨h.lt_length, hlength ▸ h.lt_length⟩
    · exact ⟨hlength ▸ h.lt_length, h.lt_length⟩
  have hl := List.getElem?_eq_getElem hi.1
  have hr := List.getElem?_eq_getElem hi.2
  refine ⟨op.apply l[i] r[i], by rw [List.getElem?_zipWith, hl, hr], op.isNaN_apply ?_⟩
  refine h.imp ?_ ?_
  · rintro ⟨x, hx, hnan⟩
    rwa [Option.some_inj.1 (hl.symm.trans hx)]
  · rintro ⟨x, hx, hnan⟩
    rwa [Option.some_inj.1 (hr.symm.trans hx)]

/-- Also where an index is no signed word: a lag finds its source or a missing point. -/
theorem getElem?_lag_cases (offset : Int) (hi : i < s.length) :
    (lag s offset)[i]? = some missing ∨
      ∃ j : Nat, (i : Int) - offset = j ∧ j < s.length ∧ (lag s offset)[i]? = s[j]? := by
  rw [lag, List.getElem?_map, List.getElem?_range hi, Option.map_some]
  cases hsource : sourceIndex? i offset s.length with
  | none => exact .inl rfl
  | some j =>
    have hj := lt_of_sourceIndex? hsource
    refine .inr ⟨j, sub_eq_of_sourceIndex? hsource, hj, ?_⟩
    dsimp only
    rw [List.getElem?_eq_getElem hj, Option.getD_some]

theorem isMissingAt_lag (hi : i < s.length) (hj : (i : Int) - offset = j) (h : s.IsMissingAt j) :
    (lag s offset).IsMissingAt i := by
  rcases getElem?_lag_cases offset hi with hmissing | ⟨j', hj', -, hsource⟩
  · exact ⟨missing, hmissing, by decide⟩
  · obtain rfl : j' = j := by omega
    obtain ⟨x, hx, hnan⟩ := h
    exact ⟨x, hsource.trans hx, hnan⟩

theorem isMissingAt_lag_outside (hi : i < s.length)
    (houtside : ¬(0 ≤ (i : Int) - offset ∧ (i : Int) - offset < s.length)) :
    (lag s offset).IsMissingAt i := by
  rcases getElem?_lag_cases offset hi with hmissing | ⟨j, hj, hlt, -⟩
  · exact ⟨missing, hmissing, by decide⟩
  · omega

end Series

namespace Expr

/-- A path from the root at an index comes to a missing point. It leads through operands, and
through the arguments of lags at the index of the source; a source that is no index ends it. -/
inductive LeadsToMissing (inputs : Inputs) (table : Table Series) : Expr → Nat → Prop
  | number {text : String} {line i : Nat} {x : Float} (hx : Decimal.readFloat? text = some x)
    (hnan : x.isNaN = true) : LeadsToMissing inputs table (number text line) i
  | input {name : String} {line i : Nat} {s : Series} (hs : inputs.get? name = some s)
    (h : s.IsMissingAt i) : LeadsToMissing inputs table (input name line) i
  | symbol {name : String} {line i : Nat} {s : Series} (hs : table.get? name = some s)
    (h : s.IsMissingAt i) : LeadsToMissing inputs table (symbol name line) i
  | left {op : Operator} {left right : Expr} {line i : Nat}
    (h : LeadsToMissing inputs table left i) :
    LeadsToMissing inputs table (binary op left right line) i
  | right {op : Operator} {left right : Expr} {line i : Nat}
    (h : LeadsToMissing inputs table right i) :
    LeadsToMissing inputs table (binary op left right line) i
  | lag {argument period : Expr} {offset : Int} {line i j : Nat}
    (hoffset : period.integerLiteral? = some offset) (hj : (i : Int) - offset = j)
    (hlt : j < inputs.length) (h : LeadsToMissing inputs table argument j) :
    LeadsToMissing inputs table (call .ref [argument, period] line) i
  | outside {argument period : Expr} {offset : Int} {line i : Nat}
    (hoffset : period.integerLiteral? = some offset)
    (h : ¬(0 ≤ (i : Int) - offset ∧ (i : Int) - offset < inputs.length)) :
    LeadsToMissing inputs table (call .ref [argument, period] line) i

variable {inputs : Inputs} {table : Table Series} {argument period : Expr} {out : Series}

theorem evaluate_lag {offset : Int} {line : Nat} (hoffset : period.integerLiteral? = some offset)
    (h : (call .ref [argument, period] line).evaluate inputs table = .ok out) :
    ∃ s, argument.evaluate inputs table = .ok s ∧ Series.lag s offset = out := by
  obtain ⟨g, argument', period', n, s, hg, hes, hn, hs, rfl⟩ := evaluate_call_eq_ok_iff.1 h
  cases hg
  cases hes
  obtain rfl := Option.some_inj.1 (hoffset.symm.trans hn)
  exact ⟨s, hs, rfl⟩

theorem isMissingAt_of_leadsToMissing {e : Expr} {i : Nat} (hmeasures : inputs.Measures table)
    (hi : i < inputs.length) (hpath : e.LeadsToMissing inputs table i)
    (h : e.evaluate inputs table = .ok out) : out.IsMissingAt i := by
  induction hpath generalizing out with
  | number hx hnan =>
    obtain ⟨x, hx', rfl⟩ := evaluate_number_eq_ok_iff.1 h
    obtain rfl := Option.some_inj.1 (hx.symm.trans hx')
    exact Series.isMissingAt_constant hnan hi
  | input hs hmissing =>
    obtain rfl := Option.some_inj.1 (hs.symm.trans (evaluate_input_eq_ok_iff.1 h))
    exact hmissing
  | symbol hs hmissing =>
    obtain rfl := Option.some_inj.1 (hs.symm.trans (evaluate_symbol_eq_ok_iff.1 h))
    exact hmissing
  | left hpath ih =>
    obtain ⟨l, hl, r, -, hout⟩ := evaluate_binary_eq_ok_iff.1 h
    exact Series.isMissingAt_combine hout (.inl (ih hi hl))
  | right hpath ih =>
    obtain ⟨l, -, r, hr, hout⟩ := evaluate_binary_eq_ok_iff.1 h
    exact Series.isMissingAt_combine hout (.inr (ih hi hr))
  | lag hoffset hj hlt hpath ih =>
    obtain ⟨s, hs, rfl⟩ := evaluate_lag hoffset h
    rw [← length_of_evaluate hmeasures hs] at hi
    -- the path goes on at the index that the lag looks at
    exact Series.isMissingAt_lag hi hj (ih hlt hs)
  | outside hoffset houtside =>
    obtain ⟨s, hs, rfl⟩ := evaluate_lag hoffset h
    rw [← length_of_evaluate hmeasures hs] at hi houtside
    exact Series.isMissingAt_lag_outside hi houtside

theorem evaluate_missing (hreaches : inputs.Reaches table) {e : Expr}
    (h : e.evaluate inputs table = .ok out) {i : Nat} (hi : i < inputs.length)
    (hpath : e.LeadsToMissing inputs table i) : ∃ x, out[i]? = some x ∧ x.isNaN = true :=
  isMissingAt_of_leadsToMissing hreaches.measures hi hpath h

/-- The closes of three days, the second missing. -/
def closesWithGap : Inputs :=
  ⟨.ofList [("CLOSE", [1.0, Series.missing, 4.0])], 3, by decide⟩

/-- The first point of the quotient looks ahead to the gap, the second is divided by it, and the
third looks ahead of the series. -/
theorem evaluate_missing_ahead :
    let quotient := binary .div (call .ref [symbol "A" 1, number "-1" 1] 1) (input "CLOSE" 1) 1
    let table := Table.ofList [("A", [1.0, Series.missing, 4.0])]
    let out := [Series.missing, Series.missing, Series.missing]
    closesWithGap.Reaches table ∧ quotient.evaluate closesWithGap table = .ok out ∧
      (0 < closesWithGap.length ∧ quotient.LeadsToMissing closesWithGap table 0 ∧
        ∃ x, out[0]? = some x ∧ x.isNaN = true) ∧
      (1 < closesWithGap.length ∧ quotient.LeadsToMissing closesWithGap table 1 ∧
        ∃ x, out[1]? = some x ∧ x.isNaN = true) ∧
      (2 < closesWithGap.length ∧ quotient.LeadsToMissing closesWithGap table 2 ∧
        ∃ x, out[2]? = some x ∧ x.isNaN = true) := by
  intro quotient table out
  have hreaches : closesWithGap.Reaches table :=
    .execute (s := .assign "A" (.input "CLOSE" 1) 1) .empty rfl
  have hout : quotient.evaluate closesWithGap table = .ok out := by with_unfolding_all rfl
  have hgap : Series.IsMissingAt [1.0, Series.missing, 4.0] 1 := ⟨Series.missing, rfl, by decide⟩
  have hoffset : (number "-1" 1).integerLiteral? = some (-1) := by decide
  have hfirst : quotient.LeadsToMissing closesWithGap table 0 :=
    .left (.lag hoffset (j := 1) rfl (by decide) (.symbol rfl hgap))
  have hsecond : quotient.LeadsToMissing closesWithGap table 1 := .right (.input rfl hgap)
  have hthird : quotient.LeadsToMissing closesWithGap table 2 :=
    .left (.outside hoffset (by decide))
  exact ⟨hreaches, hout,
    ⟨by decide, hfirst, evaluate_missing hreaches hout (by decide) hfirst⟩,
    ⟨by decide, hsecond, evaluate_missing hreaches hout (by decide) hsecond⟩,
    ⟨by decide, hthird, evaluate_missing hreaches hout (by decide) hthird⟩⟩

end Expr

end IndicatorFormula
