import IndicatorFormula.Proofs.SeriesArgument.Fields
import IndicatorFormula.Proofs.Evaluation.Inversion
import Mathlib.Data.List.Forall2
import Mathlib.Data.List.TakeDrop

/-!
Reading a series argument. `Reads` says what comes of each argument: a series where every field is a
point, the report of the first field that is none, and the report that it has no equals sign or no
name. `read_eq_iff_reads` proves that it is what comes of it.
-/

namespace IndicatorFormula.NamedSeries

open Text (AllBlank trim)

variable {argument name : String} {values field : List Char} {fs : List (List Char)}
  {points : Series} {x : Float}

/-! ## Fields -/

/-- The point that a field stands for. -/
inductive IsPoint : List Char → Float → Prop
  | missing {field : List Char} : AllBlank field → IsPoint field Series.missing
  | number {field : List Char} {x : Float} : ¬AllBlank field →
      Decimal.readFloat? (String.ofList (trim field)) = some x → IsPoint field x

def IsUnreadable (field : List Char) : Prop :=
  ¬AllBlank field ∧ Decimal.readFloat? (String.ofList (trim field)) = none

theorem exists_isPoint_or_isUnreadable (field : List Char) :
    (∃ x, IsPoint field x) ∨ IsUnreadable field := by
  by_cases hblank : AllBlank field
  · exact .inl ⟨_, .missing hblank⟩
  · cases hread : Decimal.readFloat? (String.ofList (trim field)) with
    | none => exact .inr ⟨hblank, hread⟩
    | some x => exact .inl ⟨x, .number hblank hread⟩

theorem not_isEmpty_trim (h : ¬AllBlank field) : ¬(trim field).isEmpty = true :=
  fun hempty => h (Text.trim_eq_nil_iff.1 (List.isEmpty_iff.1 hempty))

theorem IsPoint.readField_eq (h : IsPoint field x) (name : String) :
    readField name (trim field) = .ok x := by
  cases h with
  | missing hblank =>
    rw [Text.trim_of_allBlank hblank]
    rfl
  | number hnonblank hread =>
    rw [readField, if_neg (not_isEmpty_trim hnonblank)]
    dsimp only
    rw [hread]

theorem IsUnreadable.readField_eq (h : IsUnreadable field) (name : String) :
    readField name (trim field) = .error (.badValue (String.ofList (trim field)) name) := by
  rw [readField, if_neg (not_isEmpty_trim h.1)]
  dsimp only
  rw [h.2]

/-- Of the fields that are written either all are points, or there is a first one that is none. -/
theorem exists_points_or_first_isUnreadable (fs : List (List Char)) :
    (∃ points, List.Forall₂ IsPoint fs points) ∨
      ∃ before field after points, fs = before ++ field :: after ∧
        List.Forall₂ IsPoint before points ∧ IsUnreadable field := by
  induction fs with
  | nil => exact .inl ⟨[], .nil⟩
  | cons field fs ih =>
    obtain ⟨x, hx⟩ | hfield := exists_isPoint_or_isUnreadable field
    · obtain ⟨points, hpoints⟩ | ⟨before, bad, after, points, rfl, hpoints, hbad⟩ := ih
      · exact .inl ⟨x :: points, .cons hx hpoints⟩
      · exact .inr ⟨field :: before, bad, after, x :: points, rfl, .cons hx hpoints, hbad⟩
    · exact .inr ⟨[], field, fs, [], rfl, .nil, hfield⟩

theorem mapM_readField_of_points (h : List.Forall₂ IsPoint fs points) (name : String) :
    (fs.map trim).mapM (readField name) = .ok points := by
  induction h with
  | nil => rfl
  | cons hx hpoints ih =>
    rw [List.map_cons, List.mapM_cons, hx.readField_eq, ih]
    rfl

theorem mapM_readField_of_isUnreadable {before after : List (List Char)}
    (hbefore : List.Forall₂ IsPoint before points) (hfield : IsUnreadable field) (name : String) :
    ((before ++ field :: after).map trim).mapM (readField name) =
      .error (.badValue (String.ofList (trim field)) name) := by
  rw [List.map_append, List.mapM_append, mapM_readField_of_points hbefore, List.map_cons,
    List.mapM_cons, hfield.readField_eq]
  rfl

/-! ## The name -/

theorem ne_equals_of_not_mem {cs : List Char} (h : '=' ∉ cs) : ∀ c ∈ cs, (c != '=') = true :=
  fun _ hc => bne_iff_ne.2 fun heq => h (heq ▸ hc)

theorem read_of_not_mem (h : '=' ∉ argument.toList) :
    read argument = .error (.noEquals argument) := by
  have hafter : argument.toList.dropWhile (· != '=') = [] :=
    List.dropWhile_eq_nil_iff.2 (ne_equals_of_not_mem h)
  rw [read, List.span_eq_takeWhile_dropWhile, hafter]

theorem read_of_eq_append {front : List Char} (h : argument.toList = front ++ '=' :: values)
    (hfront : '=' ∉ front) :
    read argument =
      if front.isEmpty then .error (.noName argument)
      else
        ((fields values).mapM (readField (String.ofList front))).map fun series =>
          ⟨String.ofList front, series⟩ := by
  have hafter : ∀ c ∈ ('=' :: values).head?, (c != '=') = false := fun c hc =>
    Option.some_inj.1 hc ▸ bne_self_eq_false '='
  obtain ⟨htake, hdrop⟩ := Text.span_exact (ne_equals_of_not_mem hfront) hafter
  rw [read, h, List.span_eq_takeWhile_dropWhile, htake, hdrop]

theorem read_of_noName (h : argument.toList = '=' :: values) :
    read argument = .error (.noName argument) :=
  read_of_eq_append h List.not_mem_nil

theorem read_of_writes (h : argument.toList = name.toList ++ '=' :: values) (hname : name ≠ "")
    (hequals : '=' ∉ name.toList) (hwrites : Writes values fs) :
    read argument = ((fs.map trim).mapM (readField name)).map (⟨name, ·⟩) := by
  have hne : ¬name.toList.isEmpty = true := fun hempty =>
    hname (String.toList_eq_nil_iff.1 (List.isEmpty_iff.1 hempty))
  rw [read_of_eq_append h hequals, if_neg hne, hwrites.fields_eq, String.ofList_toList]

/-- The series that an argument is read as, or the report of why it is none. -/
inductive Reads (argument : String) : Except String NamedSeries → Prop
  | noEquals : '=' ∉ argument.toList →
      Reads argument (.error ("expected NAME=v1,v2,..., found '" ++ argument ++ "'"))
  | noName {values : List Char} : argument.toList = '=' :: values →
      Reads argument (.error ("missing series name in '" ++ argument ++ "'"))
  | badValue {name : String} {values field : List Char} {before after : List (List Char)}
      {points : Series} : argument.toList = name.toList ++ '=' :: values → name ≠ "" →
      '=' ∉ name.toList → Writes values (before ++ field :: after) →
      List.Forall₂ IsPoint before points → IsUnreadable field →
      Reads argument (.error ("invalid value '" ++ String.ofList (trim field) ++ "' in series " ++
        name ++ ": invalid float literal"))
  | series {name : String} {values : List Char} {fs : List (List Char)} {points : Series} :
      argument.toList = name.toList ++ '=' :: values → name ≠ "" → '=' ∉ name.toList →
      Writes values fs → List.Forall₂ IsPoint fs points → Reads argument (.ok ⟨name, points⟩)

theorem Reads.eq {result : Except String NamedSeries} (h : Reads argument result) :
    (read argument).mapError Error.message = result := by
  cases h with
  | noEquals h =>
    rw [read_of_not_mem h]
    rfl
  | noName h =>
    rw [read_of_noName h]
    rfl
  | badValue h hname hequals hwrites hbefore hfield =>
    rw [read_of_writes h hname hequals hwrites, mapM_readField_of_isUnreadable hbefore hfield]
    rfl
  | series h hname hequals hwrites hpoints =>
    rw [read_of_writes h hname hequals hwrites, mapM_readField_of_points hpoints]
    rfl

theorem exists_reads (argument : String) : ∃ result, Reads argument result := by
  by_cases h : '=' ∈ argument.toList
  · obtain ⟨front, values, hargument, hfront⟩ := List.eq_append_cons_of_mem h
    by_cases hname : front = []
    · subst hname
      exact ⟨_, .noName hargument⟩
    · obtain ⟨name, rfl⟩ : ∃ name : String, front = name.toList :=
        ⟨String.ofList front, (String.toList_ofList).symm⟩
      have hname : name ≠ "" := fun heq => hname (String.toList_eq_nil_iff.2 heq)
      obtain ⟨fs, hwrites⟩ := exists_writes values
      obtain ⟨points, hpoints⟩ | ⟨before, field, after, points, rfl, hbefore, hfield⟩ :=
        exists_points_or_first_isUnreadable fs
      · exact ⟨_, .series hargument hname hfront hwrites hpoints⟩
      · exact ⟨_, .badValue hargument hname hfront hwrites hbefore hfield⟩
  · exact ⟨_, .noEquals h⟩

theorem read_eq_iff_reads (argument : String) (result : Except String NamedSeries) :
    (read argument).mapError Error.message = result ↔ Reads argument result := by
  refine ⟨?_, Reads.eq⟩
  rintro rfl
  obtain ⟨result, h⟩ := exists_reads argument
  exact h.eq ▸ h

theorem read_eq_iff_reads_gap : (read "CLOSE= 10,,15, ").mapError Error.message =
    .ok ⟨"CLOSE", [10.0, Series.missing, 15.0]⟩ := by
  have hargument : "CLOSE= 10,,15, ".toList =
      "CLOSE".toList ++ '=' :: ([' '] ++ [','].intercalate [['1', '0'], [], ['1', '5']] ++
        ',' :: [' ']) := by decide
  have hwrites := @Writes.ended [' '] [' '] [['1', '0'], [], ['1', '5']] (by decide) (by decide)
    (by decide) (.inl (by decide))
  have hten : IsPoint ['1', '0'] 10.0 := .number (by decide) (by with_unfolding_all rfl)
  have hfifteen : IsPoint ['1', '5'] 15.0 := .number (by decide) (by with_unfolding_all rfl)
  have hpoints : List.Forall₂ IsPoint [['1', '0'], [], ['1', '5']] [10.0, Series.missing, 15.0] :=
    .cons hten (.cons (.missing (by decide)) (.cons hfifteen .nil))
  exact (read_eq_iff_reads _ _).2 (.series hargument (by decide) (by decide) hwrites hpoints)

end IndicatorFormula.NamedSeries
