import IndicatorFormula.Table.Lemmas

/-!
A function applied to every value of a table. It leaves the names alone and passes through look-ups
and insertions.
-/

namespace IndicatorFormula.Table

variable {α β : Type}

def map (f : α → β) (t : Table α) : Table β where
  entries := t.entries.map fun entry => (entry.1, f entry.2)
  ordered := by
    rw [List.pairwise_map]
    exact t.ordered

theorem names_map (f : α → β) (t : Table α) : (t.map f).names = t.names := by
  simp only [names, map, List.map_map, Function.comp_def]

theorem get?_map (f : α → β) (t : Table α) (name : String) :
    (t.map f).get? name = (t.get? name).map f :=
  lookup_map f t.entries name

theorem map_insert (f : α → β) (t : Table α) (name : String) (value : α) :
    (t.insert name value).map f = (t.map f).insert name (f value) := by
  apply ext_get?
  intro other
  rw [get?_map, get?_insert, get?_insert, get?_map]
  split <;> rfl

end IndicatorFormula.Table
