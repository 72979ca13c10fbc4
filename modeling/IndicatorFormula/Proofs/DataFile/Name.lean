import IndicatorFormula.DataFile.Name
import IndicatorFormula.Report

/-!
A quoted name is read as the name that was quoted, whatever characters it has and whatever stands
behind it (`readName?_quoted`).
-/

namespace IndicatorFormula.DataFile

open Report (escape hexDigit)

variable {c : Char} {cs text rest : List Char}

theorem readQuoted?_cons_plain (hquote : c ≠ '"') (hescape : c ≠ '\\') (rest : List Char) :
    readQuoted? (c :: rest) = (readQuoted? rest).map fun (text, after) => (c :: text, after) := by
  rw [readQuoted?.eq_def]
  split
  · next heq => cases heq
  · next heq => cases heq; exact absurd rfl hquote
  · next heq => cases heq; exact absurd rfl hescape
  · next heq => cases heq; rfl

/-- A control character is a name's only character whose escape has hexadecimal digits. -/
theorem escape_cases (c : Char) :
    (∃ mark, escape c = ['\\', mark] ∧ ofShortEscape? mark = some c.toNat ∧ mark ≠ 'u') ∨
    (∃ x y, escape c = ['\\', 'u', '0', '0', x, y] ∧ ofHex? ['0', '0', x, y] = some c.toNat ∧
      (x ≠ '"' ∧ x ≠ '\\') ∧ y ≠ '"' ∧ y ≠ '\\') ∨
    escape c = [c] ∧ c ≠ '"' ∧ c ≠ '\\' ∧ ¬c.toNat < 0x20 := by
  unfold escape
  split
  iterate 7 exact .inl ⟨_, rfl, by decide, by decide⟩
  · split
    · next hcontrol =>
      have hdigits : ∀ n < 0x20, ofHex? ['0', '0', hexDigit (n / 16), hexDigit (n % 16)] = some n ∧
          (hexDigit (n / 16) ≠ '"' ∧ hexDigit (n / 16) ≠ '\\') ∧
            hexDigit (n % 16) ≠ '"' ∧ hexDigit (n % 16) ≠ '\\' := by
        decide
      exact .inr (.inl ⟨_, _, rfl, hdigits _ hcontrol⟩)
    · next hquote hescape _ _ _ _ _ hcontrol =>
      exact .inr (.inr ⟨rfl, hquote, hescape, hcontrol⟩)

theorem readQuoted?_escape (c : Char) (rest : List Char) :
    readQuoted? (escape c ++ rest) =
      (readQuoted? rest).map fun (text, after) => (escape c ++ text, after) := by
  rcases escape_cases c with ⟨mark, heq, -, -⟩ | ⟨x, y, heq, -, ⟨hx, hx'⟩, hy, hy'⟩ |
    ⟨heq, hquote, hescape, -⟩
  · rw [heq]
    rfl
  · rw [heq]
    have hu (rest : List Char) : readQuoted? ('\\' :: 'u' :: rest) =
        (readQuoted? rest).map fun (text, after) => ('\\' :: 'u' :: text, after) := rfl
    simp only [List.cons_append, List.nil_append, hu,
      readQuoted?_cons_plain (show '0' ≠ '"' by decide) (show '0' ≠ '\\' by decide),
      readQuoted?_cons_plain hx hx', readQuoted?_cons_plain hy hy', Option.map_map]
    rfl
  · rw [heq]
    exact readQuoted?_cons_plain hquote hescape rest

theorem readQuoted?_flatMap_escape (cs rest : List Char) :
    readQuoted? (cs.flatMap escape ++ '"' :: rest) = some (cs.flatMap escape, rest) := by
  induction cs with
  | nil => rfl
  | cons c cs ih =>
    rw [List.flatMap_cons, List.append_assoc, readQuoted?_escape, ih]
    rfl

theorem units?_short {mark : Char} (hmark : mark ≠ 'u') (text : List Char) :
    units? ('\\' :: mark :: text) =
      (ofShortEscape? mark).bind fun unit => (units? text).map (unit :: ·) := by
  rw [units?.eq_def]
  split
  · next heq => cases heq
  · next heq => cases heq; exact absurd rfl hmark
  · next heq => cases heq; exact Option.bind_congr fun unit _ => by cases units? text <;> rfl
  · next hshort heq => cases heq; exact (hshort mark text rfl rfl).elim

theorem units?_hex (x y : Char) (text : List Char) :
    units? ('\\' :: 'u' :: '0' :: '0' :: x :: y :: text) =
      (ofHex? ['0', '0', x, y]).bind fun unit => (units? text).map (unit :: ·) := by
  rw [units?]
  exact Option.bind_congr fun unit _ => by cases units? text <;> rfl

theorem units?_plain (hescape : c ≠ '\\') (hcontrol : ¬c.toNat < 0x20) (text : List Char) :
    units? (c :: text) = (units? text).map (c.toNat :: ·) := by
  rw [units?.eq_def]
  split
  · next heq => cases heq
  · next heq => cases heq; exact absurd rfl hescape
  · next heq => cases heq; exact absurd rfl hescape
  · next heq => cases heq; rw [if_neg (not_or.2 ⟨hescape, hcontrol⟩)]

theorem units?_escape (c : Char) (text : List Char) :
    units? (escape c ++ text) = (units? text).map (c.toNat :: ·) := by
  rcases escape_cases c with ⟨mark, heq, hmark, hu⟩ | ⟨x, y, heq, hhex, -⟩ |
    ⟨heq, -, hescape, hcontrol⟩
  · rw [heq]
    exact (units?_short hu text).trans (by rw [hmark, Option.bind_some])
  · rw [heq]
    exact (units?_hex x y text).trans (by rw [hhex, Option.bind_some])
  · rw [heq]
    exact units?_plain hescape hcontrol text

theorem units?_flatMap_escape (cs : List Char) :
    units? (cs.flatMap escape) = some (cs.map Char.toNat) := by
  induction cs with
  | nil => rfl
  | cons c cs ih =>
    rw [List.flatMap_cons, units?_escape, ih]
    rfl

/-- So that no character of a text is taken for half of a pair. -/
theorem not_isSurrogate (c : Char) :
    isHighSurrogate c.toNat = false ∧ isLowSurrogate c.toNat = false := by
  have hvalid : c.toNat < 0xd800 ∨ 0xdfff < c.toNat ∧ c.toNat < 0x110000 := c.valid
  exact ⟨decide_eq_false (by omega), decide_eq_false (by omega)⟩

theorem ofUnits?_map_toNat (cs : List Char) : ofUnits? (cs.map Char.toNat) = some cs := by
  induction cs with
  | nil => rfl
  | cons c cs ih =>
    obtain ⟨hhigh, hlow⟩ := not_isSurrogate c
    cases cs with
    | nil =>
      simp only [List.map_cons, List.map_nil, ofUnits?, hhigh, hlow, Bool.or_self,
        Bool.false_eq_true, if_false, Char.ofNat_toNat]
    | cons d cs =>
      rw [List.map_cons] at ih
      simp only [List.map_cons, ofUnits?, hhigh, hlow, Bool.false_eq_true, if_false, ih,
        Option.map_some, Char.ofNat_toNat]

theorem readName?_quoted (name : String) (rest : List Char) :
    readName? (name.toList.flatMap escape ++ '"' :: rest) = some (name, rest) := by
  rw [readName?, readQuoted?_flatMap_escape]
  simp only [Option.bind_eq_bind, Option.bind_some, units?_flatMap_escape, ofUnits?_map_toNat,
    String.ofList_toList]

end IndicatorFormula.DataFile
