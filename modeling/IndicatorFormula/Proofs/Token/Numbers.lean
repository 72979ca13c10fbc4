import IndicatorFormula.Decimal.Reading
import IndicatorFormula.Token.Scan

/-!
The numbers of a text: runs of digits and dots, without a sign. Runs of digits are read as whole
numbers (`readWord?_eq_some_iff`), which are not negative.
-/

namespace IndicatorFormula.Token

def IsNumberText (text : String) : Prop :=
  text.toList ≠ [] ∧ ∀ c ∈ text.toList, isNumberPart c = true

theorem ofMark?_ne_number {c : Char} {cs rest : List Char} {text : String} :
    ofMark? c cs ≠ some (number text, rest) := by
  unfold ofMark?
  split <;> exact fun h => nomatch h

theorem isNumberText_of_first? {c : Char} {cs rest : List Char} {text : String}
    (h : first? c cs = some (number text, rest)) : IsNumberText text := by
  unfold first? at h
  split at h
  · next hc =>
    cases h
    rw [IsNumberText, String.toList_ofList]
    refine ⟨List.cons_ne_nil _ _, List.forall_mem_cons.2 ⟨hc, fun d hd => ?_⟩⟩
    exact List.all_eq_true.1 List.all_takeWhile d hd
  · split at h
    · cases h
    · exact absurd h ofMark?_ne_number

theorem isNumberText_of_scan {line : Nat} {cs : List Char} {lexemes : List Lexeme}
    (h : scan line cs = .ok lexemes) {text : String} {textLine : Nat}
    (hmem : ⟨number text, textLine⟩ ∈ lexemes) : IsNumberText text := by
  fun_induction scan line cs generalizing lexemes with
  | case1 line =>
    cases h
    cases hmem
  | case2 line rest ih => exact ih h hmem
  | case3 line c rest hnewline hseparator ih => exact ih h hmem
  | case4 line c rest hnewline hseparator hfirst => cases h
  | case5 line c rest hnewline hseparator token after hfirst e hafter ih => cases h
  | case6 line c rest hnewline hseparator token after hfirst later hafter ih =>
    cases h
    rcases List.mem_cons.1 hmem with heq | hmem
    · cases heq
      exact isNumberText_of_first? hfirst
    · exact ih hafter hmem

theorem splitSign_of_isNumberPart {cs : List Char} (h : ∀ c ∈ cs, isNumberPart c = true) :
    Decimal.splitSign cs = (false, cs) := by
  unfold Decimal.splitSign
  split
  · exact absurd (h '+' (List.mem_cons_self ..)) (by decide)
  · exact absurd (h '-' (List.mem_cons_self ..)) (by decide)
  · rfl

theorem readDigits?_eq_some_iff {cs : List Char} {n : Nat} : Decimal.readDigits? cs = some n ↔
    cs ≠ [] ∧ (∀ c ∈ cs, c.isDigit = true) ∧ Decimal.ofDigits cs = n := by
  simp only [Decimal.readDigits?, Option.ite_none_right_eq_some, Option.some_inj, Bool.and_eq_true,
    Bool.not_eq_true', List.isEmpty_eq_false_iff, List.all_eq_true, and_assoc]

theorem IsNumberText.readWord?_eq_some_iff {text : String} (h : IsNumberText text) {n : Int} :
    Decimal.readWord? text = some n ↔ (∀ c ∈ text.toList, c.isDigit = true) ∧
      n = Decimal.ofDigits text.toList ∧ n < 0x8000000000000000 := by
  rw [Decimal.readWord?, splitSign_of_isNumberPart h.2]
  simp only [Option.bind_eq_some_iff, readDigits?_eq_some_iff, Bool.false_eq_true, if_false,
    Option.ite_none_right_eq_some, Option.some_inj]
  constructor
  · rintro ⟨digits, ⟨-, hdigits, rfl⟩, hfits, rfl⟩
    exact ⟨hdigits, rfl, hfits.2⟩
  · rintro ⟨hdigits, rfl, hlt⟩
    exact ⟨_, ⟨h.1, hdigits, rfl⟩, ⟨by omega, hlt⟩, rfl⟩

theorem IsNumberText.readWord?_nonneg {text : String} (h : IsNumberText text) {n : Int}
    (hn : Decimal.readWord? text = some n) : 0 ≤ n := by
  obtain ⟨-, rfl, -⟩ := h.readWord?_eq_some_iff.1 hn
  exact Int.natCast_nonneg _

end IndicatorFormula.Token
