import IndicatorFormula.DataFile.Number
import IndicatorFormula.Proofs.Text

/-!
A number is read alike whatever stands behind it, unless that could be a part of the number
(`readNumeral?_append`).
-/

namespace IndicatorFormula.DataFile

def isNumeralPart (c : Char) : Bool :=
  c.isDigit || c == '.' || c == 'e' || c == 'E' || c == '+' || c == '-'

/-- What may stand behind a number without being read as a part of it. -/
def EndsNumeral (rest : List Char) : Prop :=
  ∀ c ∈ rest.head?, isNumeralPart c = false

variable {c : Char} {cs rest : List Char}

theorem endsNumeral_cons (h : isNumeralPart c = false) (rest : List Char) :
    EndsNumeral (c :: rest) := by
  rintro d ⟨⟩
  exact h

theorem EndsNumeral.not_isDigit (h : EndsNumeral rest) : ∀ c ∈ rest.head?, c.isDigit = false := by
  intro c hc
  have hpart := h c hc
  simp only [isNumeralPart, Bool.or_eq_false_iff] at hpart
  exact hpart.1.1.1.1.1

theorem EndsNumeral.ne (h : EndsNumeral (c :: rest)) {mark : Char}
    (hmark : isNumeralPart mark = true) : c ≠ mark := by
  rintro rfl
  rw [h c rfl] at hmark
  cases hmark

/-- A reader's answer with more left behind it. -/
def withRest {α : Type} (rest : List Char) (read : Option (α × List Char)) :
    Option (α × List Char) :=
  read.map fun (a, after) => (a, after ++ rest)

theorem readDigits?_append (h : EndsNumeral rest) (cs : List Char) :
    readDigits? (cs ++ rest) = withRest rest (readDigits? cs) := by
  obtain ⟨htake, hdrop⟩ := Text.span_append_of_head? h.not_isDigit cs
  rw [readDigits?, readDigits?, htake, hdrop]
  split <;> rfl

theorem readWhole?_append (h : EndsNumeral rest) (cs : List Char) :
    readWhole? (cs ++ rest) = withRest rest (readWhole? cs) := by
  rw [readWhole?, readWhole?, readDigits?_append h, withRest, withRest, Option.filter_map]
  rfl

theorem readFraction?_of_ne (h : c ≠ '.') (cs : List Char) :
    readFraction? (c :: cs) = some ([], c :: cs) := by
  rw [readFraction?.eq_def]
  split
  · next heq => cases heq; exact absurd rfl h
  · rfl

theorem readFraction?_append (h : EndsNumeral rest) (cs : List Char) :
    readFraction? (cs ++ rest) = withRest rest (readFraction? cs) := by
  cases cs with
  | nil =>
    cases rest with
    | nil => rfl
    | cons c rest => exact readFraction?_of_ne (h.ne (by decide)) rest
  | cons c cs =>
    by_cases hpoint : c = '.'
    · subst hpoint
      exact readDigits?_append h cs
    · rw [List.cons_append, readFraction?_of_ne hpoint, readFraction?_of_ne hpoint]
      rfl

theorem splitSign_of_ne (hplus : c ≠ '+') (hminus : c ≠ '-') (cs : List Char) :
    Decimal.splitSign (c :: cs) = (false, c :: cs) := by
  rw [Decimal.splitSign.eq_def]
  split
  · next heq => cases heq; exact absurd rfl hplus
  · next heq => cases heq; exact absurd rfl hminus
  · rfl

theorem splitSign_append (h : EndsNumeral rest) (cs : List Char) :
    Decimal.splitSign (cs ++ rest) =
      ((Decimal.splitSign cs).1, (Decimal.splitSign cs).2 ++ rest) := by
  cases cs with
  | nil =>
    cases rest with
    | nil => rfl
    | cons c rest =>
      exact splitSign_of_ne (h.ne (by decide)) (h.ne (by decide)) rest
  | cons c cs =>
    by_cases hplus : c = '+'
    · subst hplus
      rfl
    · by_cases hminus : c = '-'
      · subst hminus
        rfl
      · rw [List.cons_append, splitSign_of_ne hplus hminus, splitSign_of_ne hplus hminus]
        rfl

theorem readExponent?_append (h : EndsNumeral rest) (cs : List Char) :
    readExponent? (cs ++ rest) = withRest rest (readExponent? cs) := by
  cases cs with
  | nil =>
    cases rest with
    | nil => rfl
    | cons c rest =>
      have hmark : ¬(c = 'e' ∨ c = 'E') := not_or.2 ⟨h.ne (by decide), h.ne (by decide)⟩
      exact if_neg hmark
  | cons c cs =>
    rw [List.cons_append, readExponent?, readExponent?, splitSign_append h]
    dsimp only
    rw [readDigits?_append h]
    split
    · rw [withRest, withRest, Option.map_map, Option.map_map]
      rfl
    · rfl

theorem readUnsigned?_append (h : EndsNumeral rest) (negative : Bool) (cs : List Char) :
    readUnsigned? negative (cs ++ rest) = withRest rest (readUnsigned? negative cs) := by
  simp only [readUnsigned?, readWhole?_append h, Option.bind_eq_bind]
  cases readWhole? cs with
  | none => rfl
  | some whole =>
    simp only [withRest, Option.map_some, Option.bind_some, readFraction?_append h]
    cases readFraction? whole.2 with
    | none => rfl
    | some fraction =>
      simp only [withRest, Option.map_some, Option.bind_some, readExponent?_append h]
      cases readExponent? fraction.2 <;> rfl

theorem readNumeral?_of_ne (h : c ≠ '-') (cs : List Char) :
    readNumeral? (c :: cs) = readUnsigned? false (c :: cs) := by
  rw [readNumeral?.eq_def]
  split
  · next heq => cases heq; exact absurd rfl h
  · rfl

theorem readNumeral?_append (h : EndsNumeral rest) (cs : List Char) :
    readNumeral? (cs ++ rest) = withRest rest (readNumeral? cs) := by
  cases cs with
  | nil =>
    cases rest with
    | nil => rfl
    | cons c rest =>
      rw [List.nil_append, readNumeral?_of_ne (h.ne (by decide))]
      exact readUnsigned?_append h false []
  | cons c cs =>
    by_cases hminus : c = '-'
    · subst hminus
      exact readUnsigned?_append h true cs
    · rw [List.cons_append, readNumeral?_of_ne hminus, readNumeral?_of_ne hminus]
      exact readUnsigned?_append h false (c :: cs)

end IndicatorFormula.DataFile
