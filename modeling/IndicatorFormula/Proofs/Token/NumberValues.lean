import IndicatorFormula.Proofs.Evaluation.Inversion
import IndicatorFormula.Proofs.Point.Sign
import IndicatorFormula.Proofs.Text
import IndicatorFormula.Proofs.Token.Numbers
import Mathlib.Data.Nat.Digits.Defs

/-!
What the digits and dots of a number stand for. They write a decimal where there is a digit and no
second dot (`exists_writesDecimal_iff`), and it is this decimal that they are read as
(`read?_eq_some_iff`).
-/

namespace IndicatorFormula.Token

open Decimal (ofDigits)

variable {cs whole fraction after : List Char} {text : String} {c : Char} {d : Decimal}

/-! ## Decimals -/

def AllDigits (cs : List Char) : Prop :=
  ∀ c ∈ cs, c.isDigit = true

/-- The decimal of digits, and that of digits with a dot before, behind or among them. -/
inductive WritesDecimal : List Char → Decimal → Prop
  | whole {digits : List Char} : digits ≠ [] → AllDigits digits →
      WritesDecimal digits ⟨ofDigits digits, 0⟩
  | dotted {whole fraction : List Char} : AllDigits whole → AllDigits fraction →
      whole ++ fraction ≠ [] →
      WritesDecimal (whole ++ '.' :: fraction) ⟨ofDigits (whole ++ fraction), -fraction.length⟩

theorem AllDigits.count_eq_zero (h : AllDigits cs) : cs.count '.' = 0 :=
  List.count_eq_zero.2 fun hmem => absurd (h '.' hmem) (by decide)

theorem AllDigits.append (h : AllDigits whole) (h' : AllDigits fraction) :
    AllDigits (whole ++ fraction) :=
  List.forall_mem_append.2 ⟨h, h'⟩

theorem AllDigits.exists_mem (h : AllDigits cs) (hne : cs ≠ []) : ∃ c ∈ cs, c.isDigit = true := by
  obtain ⟨c, cs, rfl⟩ := List.exists_cons_of_ne_nil hne
  exact ⟨c, List.mem_cons_self, h c List.mem_cons_self⟩

theorem WritesDecimal.exists_digit (h : WritesDecimal cs d) :
    (∃ c ∈ cs, c.isDigit = true) ∧ cs.count '.' ≤ 1 := by
  cases h with
  | whole hne hdigits => exact ⟨hdigits.exists_mem hne, hdigits.count_eq_zero.trans_le zero_le_one⟩
  | dotted hwhole hfraction hne =>
    obtain ⟨c, hmem, hc⟩ := (hwhole.append hfraction).exists_mem hne
    refine ⟨⟨c, ?_, hc⟩, ?_⟩
    · rcases List.mem_append.1 hmem with hmem | hmem
      · exact List.mem_append_left _ hmem
      · exact List.mem_append_right _ (List.mem_cons_of_mem _ hmem)
    · rw [List.count_append, List.count_cons_self, hwhole.count_eq_zero, hfraction.count_eq_zero]

/-- Digits and dots end with their digits, or a dot stands behind these. -/
theorem exists_allDigits_append (h : ∀ c ∈ cs, isNumberPart c = true) :
    AllDigits cs ∨ ∃ digits rest, AllDigits digits ∧ cs = digits ++ '.' :: rest ∧
      ∀ c ∈ rest, isNumberPart c = true := by
  induction cs with
  | nil => exact .inl (List.forall_mem_nil _)
  | cons c cs ih =>
    obtain ⟨hc, hcs⟩ := List.forall_mem_cons.1 h
    rcases Bool.or_eq_true_iff.1 hc with hdigit | hdot
    · rcases ih hcs with hdigits | ⟨digits, rest, hdigits, rfl, hrest⟩
      · exact .inl (List.forall_mem_cons.2 ⟨hdigit, hdigits⟩)
      · exact .inr ⟨c :: digits, rest, List.forall_mem_cons.2 ⟨hdigit, hdigits⟩, rfl, hrest⟩
    · cases beq_iff_eq.1 hdot
      exact .inr ⟨[], cs, List.forall_mem_nil _, rfl, hcs⟩

theorem isDigit_head?_nil : ∀ c ∈ ([] : List Char).head?, c.isDigit = false :=
  fun _ hc => nomatch hc

theorem isDigit_head?_dot (rest : List Char) : ∀ c ∈ ('.' :: rest).head?, c.isDigit = false :=
  fun _ hc => Option.some_inj.1 hc ▸ rfl

theorem read?_append {tail : List Char} (hwhole : AllDigits whole)
    (hafter : ∀ c ∈ after.head?, c.isDigit = false)
    (hfraction : Decimal.splitFraction after = (fraction, tail)) :
    Decimal.read? (whole ++ after) =
      if whole ++ fraction = [] then none
      else (Decimal.readExponent? tail).map fun e =>
        ⟨ofDigits (whole ++ fraction), e - fraction.length⟩ := by
  obtain ⟨htake, hdrop⟩ := Text.span_exact hwhole hafter
  rw [Decimal.read?, List.span_eq_takeWhile_dropWhile, htake, hdrop]
  simp only [hfraction, Bool.and_eq_true, List.isEmpty_iff, List.append_eq_nil_iff]

theorem splitFraction_dot (hfraction : AllDigits fraction)
    (hafter : ∀ c ∈ after.head?, c.isDigit = false) :
    Decimal.splitFraction ('.' :: (fraction ++ after)) = (fraction, after) := by
  obtain ⟨htake, hdrop⟩ := Text.span_exact hfraction hafter
  rw [Decimal.splitFraction, List.span_eq_takeWhile_dropWhile, htake, hdrop]

theorem read?_of_allDigits (h : AllDigits cs) :
    Decimal.read? cs = if cs = [] then none else some ⟨ofDigits cs, 0⟩ := by
  have hread := read?_append h isDigit_head?_nil rfl
  rwa [List.append_nil] at hread

theorem read?_dot (hwhole : AllDigits whole) (hfraction : AllDigits fraction) :
    Decimal.read? (whole ++ '.' :: fraction) =
      if whole ++ fraction = [] then none
      else some ⟨ofDigits (whole ++ fraction), -fraction.length⟩ := by
  have hsplit := splitFraction_dot hfraction isDigit_head?_nil
  rw [List.append_nil] at hsplit
  rw [read?_append hwhole (isDigit_head?_dot _) hsplit]
  simp only [Decimal.readExponent?, Option.map_some, Int.zero_sub]

theorem read?_two_dots (hwhole : AllDigits whole) (hfraction : AllDigits fraction)
    (rest : List Char) :
    Decimal.read? (whole ++ '.' :: (fraction ++ '.' :: rest)) = none := by
  have hsplit := splitFraction_dot hfraction (isDigit_head?_dot rest)
  have hexponent : Decimal.readExponent? ('.' :: rest) = none := by
    rw [Decimal.readExponent?, if_neg (by decide)]
  rw [read?_append hwhole (isDigit_head?_dot _) hsplit, hexponent]
  exact ite_self _

theorem WritesDecimal.read?_eq (h : WritesDecimal cs d) : Decimal.read? cs = some d := by
  cases h with
  | whole hne hdigits => rw [read?_of_allDigits hdigits, if_neg hne]
  | dotted hwhole hfraction hne => rw [read?_dot hwhole hfraction, if_neg hne]

/-- Digits and dots write a decimal, or they are not read. -/
theorem exists_writesDecimal_or (h : ∀ c ∈ cs, isNumberPart c = true) :
    (∃ d, WritesDecimal cs d) ∨
      Decimal.read? cs = none ∧ ¬((∃ c ∈ cs, c.isDigit = true) ∧ cs.count '.' ≤ 1) := by
  -- by the first dot, and by the first one behind it
  rcases exists_allDigits_append h with hdigits | ⟨whole, rest, hwhole, rfl, hrest⟩
  · by_cases hne : cs = []
    · subst hne
      exact .inr ⟨rfl, fun ⟨⟨c, hc, _⟩, _⟩ => nomatch hc⟩
    · exact .inl ⟨_, .whole hne hdigits⟩
  rcases exists_allDigits_append hrest with hfraction | ⟨fraction, rest, hfraction, rfl, -⟩
  · by_cases hne : whole ++ rest = []
    · obtain ⟨rfl, rfl⟩ := List.append_eq_nil_iff.1 hne
      refine .inr ⟨rfl, fun ⟨⟨c, hmem, hc⟩, _⟩ => ?_⟩
      cases List.mem_singleton.1 hmem
      cases hc
    · exact .inl ⟨_, .dotted hwhole hfraction hne⟩
  · refine .inr ⟨read?_two_dots hwhole hfraction rest, fun hcount => ?_⟩
    have hdots := hcount.2
    rw [List.count_append, List.count_cons_self, List.count_append, List.count_cons_self] at hdots
    omega

theorem exists_writesDecimal_iff (h : ∀ c ∈ cs, isNumberPart c = true) :
    (∃ d, WritesDecimal cs d) ↔ (∃ c ∈ cs, c.isDigit = true) ∧ cs.count '.' ≤ 1 := by
  refine ⟨fun ⟨d, hd⟩ => hd.exists_digit, fun hdigit => ?_⟩
  exact (exists_writesDecimal_or h).resolve_right fun hnone => hnone.2 hdigit

theorem read?_eq_some_iff (h : ∀ c ∈ cs, isNumberPart c = true) :
    Decimal.read? cs = some d ↔ WritesDecimal cs d := by
  refine ⟨fun hread => ?_, WritesDecimal.read?_eq⟩
  rcases exists_writesDecimal_or h with ⟨d', hd'⟩ | ⟨hnone, -⟩
  · cases hread.symm.trans hd'.read?_eq
    exact hd'
  · cases hread.symm.trans hnone

/-! ## Points -/

theorem toLower_of_isNumberPart (h : isNumberPart c = true) : c.toLower = c := by
  rcases Bool.or_eq_true_iff.1 h with hdigit | hdot
  · have hle : c.val ≤ '9'.val := of_decide_eq_true (Bool.and_eq_true_iff.1 hdigit).2
    exact dif_neg fun hupper => absurd (UInt32.le_trans hupper.1 hle) (by decide)
  · rw [beq_iff_eq.1 hdot]
    rfl

/-- Digits and dots spell no word. -/
theorem ofList_map_toLower_ne (h : ∀ c ∈ cs, isNumberPart c = true) (word : String)
    (hword : ∃ c ∈ word.toList, isNumberPart c = false) :
    String.ofList (cs.map Char.toLower) ≠ word := by
  rintro rfl
  obtain ⟨c, hmem, hc⟩ := hword
  rw [String.toList_ofList, List.map_congr_left fun c hc => toLower_of_isNumberPart (h c hc),
    List.map_id'] at hmem
  rw [h c hmem] at hc
  cases hc

theorem IsNumberText.readFloat?_eq (h : IsNumberText text) :
    Decimal.readFloat? text = (Decimal.read? text.toList).map Decimal.toFloat := by
  have hinf := ofList_map_toLower_ne h.2 "inf" ⟨'i', by decide, by decide⟩
  have hinfinity := ofList_map_toLower_ne h.2 "infinity" ⟨'i', by decide, by decide⟩
  have hnan := ofList_map_toLower_ne h.2 "nan" ⟨'n', by decide, by decide⟩
  rw [Decimal.readFloat?, splitSign_of_isNumberPart h.2]
  dsimp only [Decimal.readMagnitude?]
  rw [if_neg (not_or.2 ⟨hinf, hinfinity⟩), if_neg hnan, Option.map_map]
  rfl

theorem IsNumberText.readFloat?_eq_some_iff (h : IsNumberText text) {x : Float} :
    Decimal.readFloat? text = some x ↔ ∃ d, WritesDecimal text.toList d ∧ d.toFloat = x := by
  simp only [h.readFloat?_eq, Option.map_eq_some_iff, read?_eq_some_iff h.2]

/-! ## Whole numbers -/

/-- The number that digits write to base ten, the last of them the units. -/
def decimalValue (text : String) : Nat :=
  Nat.ofDigits 10 (text.toList.reverse.map fun c => c.toNat - '0'.toNat)

theorem ofDigits_eq (cs : List Char) :
    ofDigits cs = Nat.ofDigits 10 (cs.reverse.map fun c => c.toNat - '0'.toNat) := by
  induction cs using List.reverseRecOn with
  | nil => rfl
  | append_singleton cs c ih =>
    rw [ofDigits, List.foldl_append, ← ofDigits, ih, List.reverse_append, List.reverse_singleton,
      List.singleton_append, List.map_cons, Nat.ofDigits_cons, Nat.add_comm]
    rfl

theorem IsNumberText.integerLiteral?_eq_some_iff (h : IsNumberText text) {line : Nat} {n : Int} :
    (Expr.number text line).integerLiteral? = some n ↔
      AllDigits text.toList ∧ n = decimalValue text ∧ n < 2 ^ 63 := by
  rw [Expr.integerLiteral?, h.readWord?_eq_some_iff, ofDigits_eq]
  rfl

/-! ## Numbers of a text -/

theorem IsNumberText.exists_evaluate_iff (h : IsNumberText text) (inputs : Inputs)
    (table : Table Series) (line : Nat) :
    (∃ s, (Expr.number text line).evaluate inputs table = .ok s) ↔
      (∃ c ∈ text.toList, c.isDigit = true) ∧ text.toList.count '.' ≤ 1 := by
  rw [← exists_writesDecimal_iff h.2]
  simp only [Expr.evaluate_number_eq_ok_iff, h.readFloat?_eq_some_iff]
  constructor
  · rintro ⟨-, -, ⟨d, hd, -⟩, -⟩
    exact ⟨d, hd⟩
  · rintro ⟨d, hd⟩
    exact ⟨_, _, ⟨d, hd, rfl⟩, rfl⟩

/-- A number of a text that is divided into tokens has a value where it has a digit and no second
dot, and this is neither missing nor negative. It is a whole number where it has only digits, below
`2 ^ 63`; then it has a value too. -/
theorem number_of_mem_lexemes {source : String} {lexemes : List Lexeme}
    (hlexemes : Token.lexemes source = .ok lexemes) {text : String} {textLine : Nat}
    (hmem : ⟨number text, textLine⟩ ∈ lexemes) (inputs : Inputs) (table : Table Series)
    (line : Nat) :
    ((∃ s, (Expr.number text line).evaluate inputs table = .ok s) ↔
      (∃ c ∈ text.toList, c.isDigit = true) ∧ text.toList.count '.' ≤ 1) ∧
    (∀ s, (Expr.number text line).evaluate inputs table = .ok s →
      ∃ x, Decimal.readFloat? text = some x ∧ s = Series.constant inputs.length x ∧
        x.isNaN = false ∧ x.toBits.toNat < 2 ^ 63) ∧
    (∀ n, (Expr.number text line).integerLiteral? = some n ↔
      (∀ c ∈ text.toList, c.isDigit = true) ∧ n = decimalValue text ∧ n < 2 ^ 63) ∧
    ∀ n, (Expr.number text line).integerLiteral? = some n →
      ∃ s, (Expr.number text line).evaluate inputs table = .ok s := by
  have htext : IsNumberText text := isNumberText_of_scan hlexemes hmem
  have hreads := htext.exists_evaluate_iff inputs table line
  refine ⟨hreads, fun s hs => ?_, fun n => htext.integerLiteral?_eq_some_iff, fun n hn => ?_⟩
  · obtain ⟨x, hx, rfl⟩ := Expr.evaluate_number_eq_ok_iff.1 hs
    obtain ⟨d, -, rfl⟩ := htext.readFloat?_eq_some_iff.1 hx
    have hnonneg := Point.isNonneg_toFloat d
    exact ⟨_, hx, rfl, hnonneg.isNaN_eq, hnonneg.toBits_lt⟩
  · obtain ⟨hdigits, -, -⟩ := htext.integerLiteral?_eq_some_iff.1 hn
    exact hreads.2 ⟨hdigits.exists_mem htext.1, hdigits.count_eq_zero.trans_le zero_le_one⟩

theorem number_of_mem_lexemes_leading_zeros :
    ∃ lexemes, Token.lexemes "MA(LOW,007)" = .ok lexemes ∧ ⟨number "007", 1⟩ ∈ lexemes ∧
      (Expr.number "007" 1).integerLiteral? = some 7 ∧
      ∃ s, (Expr.number "007" 1).evaluate ⟨.empty, 0, List.forall_mem_nil _⟩ .empty = .ok s := by
  have hlexemes : Token.lexemes "MA(LOW,007)" = .ok [⟨.identifier "MA", 1⟩, ⟨.leftParen, 1⟩,
      ⟨.identifier "LOW", 1⟩, ⟨.comma, 1⟩, ⟨.number "007", 1⟩, ⟨.rightParen, 1⟩] := by
    with_unfolding_all rfl
  have hmem : (⟨number "007", 1⟩ : Lexeme) ∈ [⟨.identifier "MA", 1⟩, ⟨.leftParen, 1⟩,
      ⟨.identifier "LOW", 1⟩, ⟨.comma, 1⟩, ⟨.number "007", 1⟩, ⟨.rightParen, 1⟩] := by decide
  obtain ⟨-, -, hwhole, hvalue⟩ :=
    number_of_mem_lexemes hlexemes hmem ⟨.empty, 0, List.forall_mem_nil _⟩ .empty 1
  have hdigits : ∀ c ∈ "007".toList, c.isDigit = true := List.all_eq_true.1 (by decide)
  have hseven := (hwhole 7).2 ⟨hdigits, by decide, by decide⟩
  exact ⟨_, hlexemes, hmem, hseven, hvalue 7 hseven⟩

end IndicatorFormula.Token
