/-!
A series holds one point for each moment, oldest first. A point that is missing is NaN.
-/

namespace IndicatorFormula

abbrev Series := List Float

namespace Series

def missing : Float := 0.0 / 0.0

def constant (length : Nat) (x : Float) : Series :=
  List.replicate length x

/-- The points that are not missing. -/
def present (s : Series) : Series :=
  s.filter fun x => !x.isNaN

end Series

end IndicatorFormula
