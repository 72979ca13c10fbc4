/-!
The words a formula may not assign: the names of the four prices and the names of the functions.
Upper and lower case differ. Of the seven functions four can be evaluated; the other three are
reserved.
-/

namespace IndicatorFormula

inductive Builtin
  | ma
  | ref
  | hhv
  | llv
  | sma
  | wma
  | ema
  deriving DecidableEq, Repr

namespace Builtin

def name : Builtin → String
  | ma => "MA"
  | ref => "REF"
  | hhv => "HHV"
  | llv => "LLV"
  | sma => "SMA"
  | wma => "WMA"
  | ema => "EMA"

def all : List Builtin :=
  [ma, ref, hhv, llv, sma, wma, ema]

def ofName? (name : String) : Option Builtin :=
  all.find? fun f => f.name == name

def isImplemented : Builtin → Bool
  | ma | ref | hhv | llv => true
  | sma | wma | ema => false

/-- An extremum is taken over at least one point. -/
def needsPositivePeriod : Builtin → Bool
  | hhv | llv => true
  | ma | ref | sma | wma | ema => false

theorem mem_all (f : Builtin) : f ∈ all := by
  cases f <;> decide

theorem name_injective {f g : Builtin} (h : f.name = g.name) : f = g := by
  cases f <;> cases g <;> first | rfl | exact absurd h (by decide)

theorem ofName?_name (f : Builtin) : ofName? f.name = some f := by
  cases f <;> decide

theorem name_of_ofName? {name : String} {f : Builtin} (h : ofName? name = some f) :
    f.name = name := by
  have hname := List.find?_some h
  exact beq_iff_eq.1 hname

theorem isSome_ofName?_iff {name : String} :
    (ofName? name).isSome = true ↔ name ∈ ["MA", "REF", "HHV", "LLV", "SMA", "WMA", "EMA"] := by
  have hnames : ["MA", "REF", "HHV", "LLV", "SMA", "WMA", "EMA"] = all.map Builtin.name := rfl
  rw [hnames, List.mem_map, Option.isSome_iff_exists]
  constructor
  · rintro ⟨f, hf⟩
    exact ⟨f, mem_all f, name_of_ofName? hf⟩
  · rintro ⟨f, -, rfl⟩
    exact ⟨f, ofName?_name f⟩

end Builtin

def isPriceName (name : String) : Bool :=
  ["CLOSE", "OPEN", "HIGH", "LOW"].contains name

def isReserved (name : String) : Bool :=
  isPriceName name || (Builtin.ofName? name).isSome

theorem isReserved_iff {name : String} : isReserved name = true ↔
    name ∈ ["CLOSE", "OPEN", "HIGH", "LOW", "MA", "REF", "HHV", "LLV", "SMA", "WMA", "EMA"] := by
  have hwords : ["CLOSE", "OPEN", "HIGH", "LOW", "MA", "REF", "HHV", "LLV", "SMA", "WMA", "EMA"] =
      ["CLOSE", "OPEN", "HIGH", "LOW"] ++ ["MA", "REF", "HHV", "LLV", "SMA", "WMA", "EMA"] := rfl
  rw [hwords, List.mem_append, isReserved, Bool.or_eq_true, isPriceName, List.contains_iff_mem,
    Builtin.isSome_ofName?_iff]

end IndicatorFormula
