import IndicatorFormula.Series

/-!
Functions of the trailing window. The window of period `p` at a moment holds the point of that
moment and the `p - 1` points before it, as far as the series goes back; missing points in it are
passed over, and a window with no other points gives a missing point.
-/

namespace IndicatorFormula.Series

/-- The last `n` of the first `i + 1` points. -/
def trailing (s : Series) (n i : Nat) : Series :=
  (s.drop (i + 1 - n)).take (min n (i + 1))

/-- `f` of the window at each moment. A negative period makes every window empty. -/
def overWindows (f : Series → Float) (s : Series) (period : Int) : Series :=
  (List.range s.length).map fun i => f (s.trailing period.toNat i)

def sum (s : Series) : Float :=
  s.foldl (· + ·) 0.0

def mean (window : Series) : Float :=
  match window.present with
  | [] => missing
  | x :: xs => sum (x :: xs) / Float.ofNat (x :: xs).length

def larger (a b : Float) : Float :=
  if a < b then b else a

def smaller (a b : Float) : Float :=
  if b < a then b else a

def greatest (window : Series) : Float :=
  match window.present with
  | [] => missing
  | x :: xs => xs.foldl larger x

def least (window : Series) : Float :=
  match window.present with
  | [] => missing
  | x :: xs => xs.foldl smaller x

def movingAverage (s : Series) (period : Int) : Series :=
  overWindows mean s period

def highest (s : Series) (period : Int) : Series :=
  overWindows greatest s period

def lowest (s : Series) (period : Int) : Series :=
  overWindows least s period

@[simp] theorem length_overWindows (f : Series → Float) (s : Series) (period : Int) :
    (overWindows f s period).length = s.length := by
  simp only [overWindows, List.length_map, List.length_range]

end IndicatorFormula.Series
