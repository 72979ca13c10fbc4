import IndicatorFormula.Proofs.Evaluation.Length
import IndicatorFormula.Proofs.Series.Order
import IndicatorFormula.Proofs.Series.Pointwise

/-!
The meaning of an expression at one moment, by recursion on the expression and without series
(`Expr.pointAt`), and the conditions on its nodes under which it has one (`Expr.IsSound`). Whole
series evaluate exactly under these conditions, and to these points
(`Expr.evaluate_eq_ok_iff_pointAt`).
-/

namespace IndicatorFormula

/-! ## The points of a window -/

namespace Point

def mean (xs : Series) : Float :=
  if xs.isEmpty then Series.missing else xs.foldl (· + ·) 0.0 / Float.ofNat xs.length

/-- The first that no other exceeds. -/
def greatest (xs : Series) : Float :=
  (xs.find? fun m => xs.all (· ≤ m)).getD Series.missing

/-- The first that exceeds no other. -/
def least (xs : Series) : Float :=
  (xs.find? fun m => xs.all (m ≤ ·)).getD Series.missing

end Point

namespace Series

variable {n : Nat} {points : Nat → Float}

theorem mean_eq (window : Series) : mean window = Point.mean window.present := by
  unfold mean
  split
  · next hpresent =>
    rw [hpresent]
    rfl
  · next hpresent =>
    rw [hpresent]
    rfl

theorem forall_mem_present (window : Series) : ∀ x ∈ window.present, x.isNaN = false := by
  intro x hx
  exact (Bool.not_eq_true' _).mp (List.mem_filter.1 hx).2

theorem extreme_eq {pick : Float → Float → Float} {extreme : Float → Float → Bool}
    (hpick : ∀ x s, (∀ y ∈ x :: s, y.isNaN = false) →
      (x :: s).find? (fun m => (x :: s).all (extreme m)) = some (s.foldl pick x))
    (window : Series) :
    (match window.present with
      | [] => missing
      | x :: xs => xs.foldl pick x) =
      (window.present.find? fun m => window.present.all (extreme m)).getD missing := by
  have hpresent := forall_mem_present window
  split
  · next hnone =>
    rw [hnone]
    rfl
  · next x xs hsome =>
    rw [hsome] at hpresent ⊢
    rw [hpick x xs hpresent, Option.getD_some]

theorem greatest_eq (window : Series) : greatest window = Point.greatest window.present :=
  extreme_eq (fun _ _ => foldl_larger) window

theorem least_eq (window : Series) : least window = Point.least window.present :=
  extreme_eq (fun _ _ => foldl_smaller) window

theorem overWindows_ofPoints {f g : Series → Float} (h : ∀ window, f window = g window.present)
    (period : Int) :
    overWindows f (ofPoints n points) period =
      ofPoints n fun i => g (windowPoints points period i) := by
  unfold overWindows
  rw [length_ofPoints]
  refine ofPoints_congr fun i hi => ?_
  rw [h, present_trailing_ofPoints hi]

theorem combine_ofPoints_eq_ok_iff {op : Operator} {line : Nat} {other : Nat → Float} {s : Series} :
    combine op line (ofPoints n points) (ofPoints n other) = .ok s ↔
      (op = .div → ∀ i < n, other i ≠ 0.0 ∧ other i ≠ -0.0) ∧
        s = ofPoints n fun i => op.apply (points i) (other i) := by
  have hzero : ∀ x : Float, (x == 0.0) = false ↔ x ≠ 0.0 ∧ x ≠ -0.0 := by
    intro x
    rw [← Bool.not_eq_true, beq_zero_iff, not_or]
  rw [combine_eq_ok_iff, length_ofPoints, length_ofPoints, forall_mem_ofPoints, zipWith_ofPoints]
  simp only [hzero, true_and, eq_comm]

end Series

/-! ## The points of an expression -/

/-- The point of a call at index `i`, where the points of its first argument are given and `n` is
its period or offset. -/
def Builtin.pointAt (f : Builtin) (length : Nat) (points : Nat → Float) (n : Int) (i : Nat) :
    Float :=
  match f with
  | ma => Point.mean (Series.windowPoints points n i)
  | ref =>
    if 0 ≤ (i : Int) - n ∧ (i : Int) - n < length then points ((i : Int) - n).toNat
    else Series.missing
  | hhv => Point.greatest (Series.windowPoints points n i)
  | llv => Point.least (Series.windowPoints points n i)
  | sma | wma | ema => Series.missing

namespace Expr

/-- Missing where the expression has no meaning. -/
def pointAt (inputs : Inputs) (table : Table Series) : Expr → Nat → Float
  | number text _, _ => (Decimal.readFloat? text).getD Series.missing
  | input name _, i => ((inputs.get? name).bind fun s => s[i]?).getD Series.missing
  | symbol name _, i => ((table.get? name).bind fun s => s[i]?).getD Series.missing
  | binary op left right _, i =>
    op.apply (pointAt inputs table left i) (pointAt inputs table right i)
  | call f arguments _, i =>
    match arguments with
    | [argument, period] =>
      match period.integerLiteral? with
      | some n => f.pointAt inputs.length (pointAt inputs table argument) n i
      | none => Series.missing
    | _ => Series.missing

/-- The nodes that evaluation comes to. The period of a call is read and not evaluated. -/
inductive Visits : Expr → Expr → Prop
  | self {e : Expr} : Visits e e
  | left {op : Operator} {left right node : Expr} {line : Nat} :
    Visits left node → Visits (binary op left right line) node
  | right {op : Operator} {left right node : Expr} {line : Nat} :
    Visits right node → Visits (binary op left right line) node
  | argument {f : Builtin} {argument period node : Expr} {line : Nat} :
    Visits argument node → Visits (call f [argument, period] line) node

/-- What evaluation asks of a node, apart from the nodes below it. -/
def IsSound (inputs : Inputs) (table : Table Series) : Expr → Prop
  | number text _ => ∃ x, Decimal.readFloat? text = some x
  | input name _ => ∃ s, inputs.get? name = some s
  | symbol name _ => ∃ s, table.get? name = some s
  | binary op _ right _ =>
    op = .div → ∀ i < inputs.length,
      pointAt inputs table right i ≠ 0.0 ∧ pointAt inputs table right i ≠ -0.0
  | call f arguments _ =>
    f.isImplemented ∧ ∃ argument period n,
      arguments = [argument, period] ∧ period.integerLiteral? = some n

section Visits

variable {P : Expr → Prop} {left right argument period : Expr} {line : Nat}

theorem forall_visits_leaf {e : Expr} (hleaf : ∀ node, e.Visits node → node = e) :
    (∀ node, e.Visits node → P node) ↔ P e := by
  refine ⟨fun h => h e .self, fun h node hnode => ?_⟩
  rw [hleaf node hnode]
  exact h

theorem forall_visits_binary {op : Operator} :
    (∀ node, (binary op left right line).Visits node → P node) ↔
      P (binary op left right line) ∧ (∀ node, left.Visits node → P node) ∧
        ∀ node, right.Visits node → P node := by
  constructor
  · exact fun h => ⟨h _ .self, fun node hnode => h node hnode.left,
      fun node hnode => h node hnode.right⟩
  · rintro ⟨hself, hleft, hright⟩ node hnode
    cases hnode with
    | self => exact hself
    | left hnode => exact hleft node hnode
    | right hnode => exact hright node hnode

theorem forall_visits_call {f : Builtin} :
    (∀ node, (call f [argument, period] line).Visits node → P node) ↔
      P (call f [argument, period] line) ∧ ∀ node, argument.Visits node → P node := by
  constructor
  · exact fun h => ⟨h _ .self, fun node hnode => h node hnode.argument⟩
  · rintro ⟨hself, hargument⟩ node hnode
    cases hnode with
    | self => exact hself
    | argument hnode => exact hargument node hnode

end Visits

theorem exists_series?_iff {f : Builtin} : (∃ g, f.series? = some g) ↔ f.isImplemented = true := by
  cases f <;> simp only [Builtin.series?, Builtin.isImplemented, Option.some.injEq, exists_eq',
    reduceCtorEq, exists_false, Bool.false_eq_true]

end Expr

theorem Builtin.series?_ofPoints {f : Builtin} {g : Series → Int → Series} (h : f.series? = some g)
    {length : Nat} (hword : FitsWord length) (points : Nat → Float) (n : Int) :
    g (Series.ofPoints length points) n = Series.ofPoints length (f.pointAt length points n) := by
  cases f <;> cases h
  · exact Series.overWindows_ofPoints Series.mean_eq n
  · exact Series.lag_ofPoints hword n points
  · exact Series.overWindows_ofPoints Series.greatest_eq n
  · exact Series.overWindows_ofPoints Series.least_eq n

namespace Expr

variable {inputs : Inputs} {table : Table Series}

theorem found_iff {found : Option Series} (hlength : ∀ t, found = some t → t.length = inputs.length)
    {s : Series} :
    found = some s ↔ (∃ t, found = some t) ∧
      s = Series.ofPoints inputs.length fun i =>
        (found.bind fun t => t[i]?).getD Series.missing := by
  have hpoints : ∀ t, found = some t → t = Series.ofPoints inputs.length fun i =>
      (found.bind fun t => t[i]?).getD Series.missing := by
    intro t ht
    rw [ht, ← hlength t ht]
    exact (Series.ofPoints_getElem? t).symm
  constructor
  · intro hs
    exact ⟨⟨s, hs⟩, hpoints s hs⟩
  · rintro ⟨⟨t, ht⟩, hs⟩
    rw [hs, ← hpoints t ht, ht]

theorem series?_eq_ofPoints {f : Builtin} {g : Series → Int → Series} (hg : f.series? = some g)
    (hword : FitsWord inputs.length) {argument period : Expr} {n : Int}
    (hn : period.integerLiteral? = some n) (line : Nat) :
    g (Series.ofPoints inputs.length (argument.pointAt inputs table)) n =
      Series.ofPoints inputs.length ((call f [argument, period] line).pointAt inputs table) := by
  rw [Builtin.series?_ofPoints hg hword]
  refine Series.ofPoints_congr fun i _ => ?_
  simp only [pointAt, hn]

/-- On whole series an expression evaluates where its nodes are sound, and to its points. -/
def IsPointwise (inputs : Inputs) (table : Table Series) (e : Expr) : Prop :=
  ∀ s, e.evaluate inputs table = .ok s ↔
    (∀ node, e.Visits node → node.IsSound inputs table) ∧
      s = Series.ofPoints inputs.length (e.pointAt inputs table)

theorem isPointwise_number (text : String) (line : Nat) :
    IsPointwise inputs table (number text line) := by
  intro s
  have hvalue : ∀ x, Decimal.readFloat? text = some x → Series.constant inputs.length x =
      Series.ofPoints inputs.length ((number text line).pointAt inputs table) := by
    intro x hx
    simp only [pointAt, hx, Option.getD_some, Series.constant_eq_ofPoints]
  rw [evaluate_number_eq_ok_iff, forall_visits_leaf fun _ hnode => by cases hnode; rfl]
  constructor
  · rintro ⟨x, hx, rfl⟩
    exact ⟨⟨x, hx⟩, hvalue x hx⟩
  · rintro ⟨⟨x, hx⟩, rfl⟩
    exact ⟨x, hx, hvalue x hx⟩

theorem isPointwise_input (name : String) (line : Nat) :
    IsPointwise inputs table (input name line) := by
  intro s
  rw [evaluate_input_eq_ok_iff, forall_visits_leaf fun _ hnode => by cases hnode; rfl]
  exact found_iff fun t ht => Inputs.length_of_get? ht

theorem isPointwise_symbol (hmeasures : inputs.Measures table) (name : String) (line : Nat) :
    IsPointwise inputs table (symbol name line) := by
  intro s
  rw [evaluate_symbol_eq_ok_iff, forall_visits_leaf fun _ hnode => by cases hnode; rfl]
  exact found_iff fun t ht => hmeasures name t ht

theorem isPointwise_binary {left right : Expr} (hl : IsPointwise inputs table left)
    (hr : IsPointwise inputs table right) (op : Operator) (line : Nat) :
    IsPointwise inputs table (binary op left right line) := by
  intro s
  rw [evaluate_binary_eq_ok_iff, forall_visits_binary]
  constructor
  · rintro ⟨l, hevaluate, r, hevaluate', hs⟩
    obtain ⟨hleft, rfl⟩ := (hl l).1 hevaluate
    obtain ⟨hright, rfl⟩ := (hr r).1 hevaluate'
    obtain ⟨hdivisor, rfl⟩ := Series.combine_ofPoints_eq_ok_iff.1 hs
    exact ⟨⟨hdivisor, hleft, hright⟩, rfl⟩
  · rintro ⟨⟨hdivisor, hleft, hright⟩, rfl⟩
    exact ⟨_, (hl _).2 ⟨hleft, rfl⟩, _, (hr _).2 ⟨hright, rfl⟩,
      Series.combine_ofPoints_eq_ok_iff.2 ⟨hdivisor, rfl⟩⟩

theorem isPointwise_call (hword : FitsWord inputs.length) {es : List Expr}
    (h : ∀ argument period, es = [argument, period] → IsPointwise inputs table argument)
    (f : Builtin) (line : Nat) : IsPointwise inputs table (call f es line) := by
  intro s
  rw [evaluate_call_eq_ok_iff]
  constructor
  · rintro ⟨g, argument, period, n, x, hg, rfl, hn, hx, rfl⟩
    obtain ⟨hargument, rfl⟩ := (h argument period rfl x).1 hx
    have hself : (call f [argument, period] line).IsSound inputs table :=
      ⟨exists_series?_iff.1 ⟨g, hg⟩, argument, period, n, rfl, hn⟩
    exact ⟨forall_visits_call.2 ⟨hself, hargument⟩, series?_eq_ofPoints hg hword hn line⟩
  · rintro ⟨hsound, rfl⟩
    -- the shape of the call comes from its own node before its argument can be looked at
    obtain ⟨himplemented, argument, period, n, rfl, hn⟩ := hsound _ .self
    obtain ⟨g, hg⟩ := exists_series?_iff.2 himplemented
    have hargument := (forall_visits_call.1 hsound).2
    exact ⟨g, argument, period, n, _, hg, rfl, hn, (h argument period rfl _).2 ⟨hargument, rfl⟩,
      series?_eq_ofPoints hg hword hn line⟩

theorem isPointwise (hmeasures : inputs.Measures table) (hword : FitsWord inputs.length)
    (e : Expr) : IsPointwise inputs table e := by
  induction e using Expr.induction_evaluated with
  | number text line => exact isPointwise_number text line
  | input name line => exact isPointwise_input name line
  | symbol name line => exact isPointwise_symbol hmeasures name line
  | binary op left right line ihl ihr => exact isPointwise_binary ihl ihr op line
  | call f es line ih => exact isPointwise_call hword ih f line

theorem evaluate_eq_ok_iff_pointAt (hreaches : inputs.Reaches table)
    (hword : FitsWord inputs.length) (e : Expr) (s : Series) :
    e.evaluate inputs table = .ok s ↔
      (∀ node, e.Visits node → node.IsSound inputs table) ∧
        s = (List.range inputs.length).map (e.pointAt inputs table) :=
  isPointwise hreaches.measures hword e s

/-- The closes of three days. -/
def threeCloses : Inputs :=
  ⟨.ofList [("CLOSE", [1.0, 2.0, 4.0])], 3, by decide⟩

theorem evaluate_mean_of_lag :
    threeCloses.Reaches (.ofList [("A", [1.0, 2.0, 4.0])]) ∧ FitsWord threeCloses.length ∧
      (call .ma [call .ref [symbol "A" 1, number "1" 1] 1, number "2" 1] 1).evaluate threeCloses
        (.ofList [("A", [1.0, 2.0, 4.0])]) = .ok [Series.missing, 1.0, 1.5] := by
  have hreaches : threeCloses.Reaches (.ofList [("A", [1.0, 2.0, 4.0])]) :=
    .execute (s := .assign "A" (.input "CLOSE" 1) 1) .empty rfl
  have hword : FitsWord threeCloses.length := by decide
  refine ⟨hreaches, hword, (evaluate_eq_ok_iff_pointAt hreaches hword _ _).2 ⟨?_, ?_⟩⟩
  · rw [forall_visits_call, forall_visits_call,
      forall_visits_leaf fun _ hnode => by cases hnode; rfl]
    exact ⟨⟨rfl, _, _, 2, rfl, by decide⟩, ⟨rfl, _, _, 1, rfl, by decide⟩, _, rfl⟩
  · decide +kernel

end Expr

end IndicatorFormula
