import IndicatorFormula.Proofs.Text
import IndicatorFormula.Proofs.Token.Concatenation

/-!
The ways in which tokens are written. Every token follows one of five patterns, and of the tokens
that begin a text the scanner takes the one that could not be longer (`first?_eq_some_iff`); it
takes none where nothing at the start follows a pattern (`first?_eq_none_iff`).
-/

namespace IndicatorFormula.Token

/-- The characters that may stand between tokens. -/
def IsBlank (c : Char) : Prop :=
  c ∈ ['\n', ' ', '\t', '\r', '\x0c', '\x0b']

instance (c : Char) : Decidable (IsBlank c) :=
  inferInstanceAs (Decidable (c ∈ _))

/-- The ways in which a token is written. -/
inductive Pattern
  | number
  | identifier
  | comparison
  | assign
  | mark

def Pattern.Matches : Pattern → List Char → Prop
  | number, text => text ≠ [] ∧ ∀ c ∈ text, c = '.' ∨ '0' ≤ c ∧ c ≤ '9'
  | identifier, text => ∃ c rest, text = c :: rest ∧ Text.isLetter c = true ∧
      ∀ d ∈ rest, Text.isLetter d = true ∨ Text.isDecimalDigit d = true
  | comparison, text => ∃ c ∈ ['<', '>', '=', '!'], text = [c] ∨ text = [c, '=']
  | assign, text => text = [':'] ∨ text = [':', '=']
  | mark, text => ∃ c ∈ ['+', '-', '*', '/', ',', '(', ')', ';'], text = [c]

def pattern : Token → Pattern
  | number _ => .number
  | identifier _ => .identifier
  | comparison _ => .comparison
  | assign _ => .assign
  | operator _ | comma | leftParen | rightParen | semicolon => .mark

/-- The token follows its pattern, and with the next character it would not. -/
structure IsLongest (token : Token) (after : List Char) : Prop where
  written : token.pattern.Matches token.text.toList
  maximal : ∀ c ∈ after.head?, ¬token.pattern.Matches (token.text.toList ++ [c])

variable {c : Char} {cs ds text after : List Char} {token : Token} {pattern : Pattern}

/-! ## Classes of characters -/

theorem isNumberPart_iff : isNumberPart c = true ↔ c = '.' ∨ '0' ≤ c ∧ c ≤ '9' := by
  simp only [isNumberPart, Char.isDigit, Bool.or_eq_true, Bool.and_eq_true, decide_eq_true_eq,
    beq_iff_eq, or_comm (b := c = '.')]
  rfl

theorem isNamePart_iff :
    isNamePart c = true ↔ Text.isLetter c = true ∨ Text.isDecimalDigit c = true := by
  rw [isNamePart, Bool.or_eq_true]

theorem isBlank_iff : IsBlank c ↔ c = '\n' ∨ isSeparator c = true := by
  simp only [IsBlank, isSeparator, List.mem_cons, List.not_mem_nil, or_false, Bool.or_eq_true,
    beq_iff_eq, or_assoc]

theorem le_of_inRanges {first last n : Nat} {ranges : List (Nat × Nat)}
    (h : Text.inRanges n ((first, last) :: ranges) = true) : first ≤ n := by
  rw [Text.inRanges, Bool.and_eq_true] at h
  exact of_decide_eq_true h.1

theorem le_of_isLetter (h : Text.isLetter c = true) : 0x41 ≤ c.toNat :=
  le_of_inRanges h

theorem le_of_isDecimalDigit (h : Text.isDecimalDigit c = true) : 0x30 ≤ c.toNat :=
  le_of_inRanges h

theorem IsBlank.lt (h : IsBlank c) : c.toNat < 0x30 := by
  simp only [IsBlank, List.mem_cons, List.not_mem_nil, or_false] at h
  rcases h with rfl | rfl | rfl | rfl | rfl | rfl <;> decide

theorem lt_of_isNumberPart (h : isNumberPart c = true) : c.toNat < 0x41 := by
  rcases isNumberPart_iff.1 h with rfl | ⟨-, hle⟩
  · decide
  · exact Nat.lt_of_le_of_lt hle (by decide)

theorem not_isBlank_of_mem {marks : List Char}
    (hmarks : marks.all (fun c => !decide (IsBlank c)) = true) (h : c ∈ marks) : ¬IsBlank c := by
  simpa only [Bool.not_eq_true', decide_eq_false_iff_not] using List.all_eq_true.1 hmarks c h

/-- No blank stands inside a token. -/
theorem Pattern.Matches.not_isBlank (h : pattern.Matches text) : ∀ c ∈ text, ¬IsBlank c := by
  intro c hc hblank
  -- every blank comes before the digits and before the letters
  have hlt := hblank.lt
  cases pattern with
  | number =>
    rcases h.2 c hc with rfl | ⟨hle, -⟩
    · exact absurd hblank (by decide)
    · exact absurd hle (Nat.not_le.2 hlt)
  | identifier =>
    obtain ⟨first, rest, rfl, hfirst, hrest⟩ := h
    have hletter (h : Text.isLetter c = true) : False := by
      have := le_of_isLetter h
      omega
    rcases List.mem_cons.1 hc with rfl | hc
    · exact hletter hfirst
    · rcases hrest c hc with h | hdigit
      · exact hletter h
      · exact absurd (le_of_isDecimalDigit hdigit) (Nat.not_le.2 hlt)
  | comparison =>
    obtain ⟨first, hfirst, htext⟩ := h
    have hc : c = first ∨ c = '=' := by
      rcases htext with rfl | rfl
      · exact .inl (List.mem_singleton.1 hc)
      · exact (List.mem_cons.1 hc).imp_right List.mem_singleton.1
    rcases hc with rfl | rfl
    · exact not_isBlank_of_mem (by decide) hfirst hblank
    · exact absurd hblank (by decide)
  | assign =>
    have hc : c ∈ [':', '='] := by
      rcases h with rfl | rfl
      · exact List.mem_cons.2 (.inl (List.mem_singleton.1 hc))
      · exact hc
    exact not_isBlank_of_mem (by decide) hc hblank
  | mark =>
    obtain ⟨first, hfirst, rfl⟩ := h
    rw [List.mem_singleton.1 hc] at hblank
    exact not_isBlank_of_mem (by decide) hfirst hblank

theorem Pattern.not_matches_nil (pattern : Pattern) : ¬pattern.Matches [] := by
  intro h
  cases pattern with
  | number => exact h.1 rfl
  | identifier =>
    obtain ⟨c, rest, heq, -⟩ := h
    cases heq
  | comparison =>
    obtain ⟨c, -, heq | heq⟩ := h <;> cases heq
  | assign =>
    rcases h with heq | heq <;> cases heq
  | mark =>
    obtain ⟨c, -, heq⟩ := h
    cases heq

theorem count_of_matches (h : pattern.Matches text) : text.count '\n' = 0 :=
  List.count_eq_zero.2 fun hmem => h.not_isBlank _ hmem (by decide)

/-! ## The longest token -/

theorem not_of_mem_head?_dropWhile {p : Char → Bool} (h : c ∈ (cs.dropWhile p).head?) :
    p c = false := by
  have hnot := List.head?_dropWhile_not p cs
  rw [h] at hnot
  exact hnot

theorem matches_number_cons : Pattern.number.Matches (c :: cs) ↔
    isNumberPart c = true ∧ ∀ d ∈ cs, isNumberPart d = true := by
  simp only [Pattern.Matches, ne_eq, reduceCtorEq, not_false_eq_true, true_and, List.mem_cons,
    forall_eq_or_imp, isNumberPart_iff]

theorem matches_identifier_cons : Pattern.identifier.Matches (c :: cs) ↔
    Text.isLetter c = true ∧ ∀ d ∈ cs, isNamePart d = true := by
  simp only [Pattern.Matches, List.cons.injEq, isNamePart_iff]
  constructor
  · rintro ⟨_, _, ⟨rfl, rfl⟩, h⟩
    exact h
  · exact fun h => ⟨c, cs, ⟨rfl, rfl⟩, h⟩

theorem matches_comparison_cons : Pattern.comparison.Matches (c :: cs) ↔
    c ∈ ['<', '>', '=', '!'] ∧ (cs = [] ∨ cs = ['=']) := by
  simp only [Pattern.Matches, List.cons.injEq, ← and_or_left]
  constructor
  · rintro ⟨_, hc, rfl, h⟩
    exact ⟨hc, h⟩
  · exact fun ⟨hc, h⟩ => ⟨c, hc, rfl, h⟩

theorem matches_assign_cons : Pattern.assign.Matches (c :: cs) ↔
    c = ':' ∧ (cs = [] ∨ cs = ['=']) := by
  simp only [Pattern.Matches, List.cons.injEq, ← and_or_left]

theorem matches_mark_cons : Pattern.mark.Matches (c :: cs) ↔
    c ∈ ['+', '-', '*', '/', ',', '(', ')', ';'] ∧ cs = [] := by
  simp only [Pattern.Matches, List.cons.injEq]
  constructor
  · rintro ⟨_, hc, rfl, h⟩
    exact ⟨hc, h⟩
  · exact fun ⟨hc, h⟩ => ⟨c, hc, rfl, h⟩

/-- A pattern of a first character and any number of further ones takes all that follow. -/
theorem longest_span {p : Char → Bool}
    (hpattern : ∀ ds, pattern.Matches (c :: ds) ↔ ∀ d ∈ ds, p d = true) (cs : List Char) :
    pattern.Matches (c :: cs.takeWhile p) ∧
      ∀ d ∈ (cs.dropWhile p).head?, ¬pattern.Matches (c :: cs.takeWhile p ++ [d]) := by
  refine ⟨(hpattern _).2 fun d hd => List.all_eq_true.1 List.all_takeWhile d hd, ?_⟩
  intro d hd hmatches
  have htaken := (hpattern _).1 hmatches d (List.mem_append_right _ (List.mem_cons_self ..))
  exact absurd htaken (Bool.not_eq_true _ ▸ not_of_mem_head?_dropWhile hd)

theorem span_of_longest {p : Char → Bool}
    (hpattern : ∀ ds, pattern.Matches (c :: ds) ↔ ∀ d ∈ ds, p d = true)
    (hwritten : pattern.Matches (c :: ds))
    (hmaximal : ∀ d ∈ after.head?, ¬pattern.Matches (c :: ds ++ [d])) :
    (ds ++ after).takeWhile p = ds ∧ (ds ++ after).dropWhile p = after := by
  have hds := (hpattern _).1 hwritten
  refine Text.span_exact hds fun d hd => Bool.not_eq_true _ ▸ fun hpart => hmaximal d hd ?_
  refine (hpattern _).2 fun e he => ?_
  rcases List.mem_append.1 he with he | he
  · exact hds e he
  · exact List.mem_singleton.1 he ▸ hpart

/-- A pattern of a mark and perhaps an equals sign takes the sign where there is one. -/
theorem longest_takeEquals
    (hpattern : ∀ ds, pattern.Matches (c :: ds) ↔ ds = [] ∨ ds = ['=']) (cs : List Char) :
    c :: cs = (takeEquals c cs).1.toList ++ (takeEquals c cs).2 ∧
      pattern.Matches (takeEquals c cs).1.toList ∧
        ∀ d ∈ (takeEquals c cs).2.head?, ¬pattern.Matches ((takeEquals c cs).1.toList ++ [d]) := by
  unfold takeEquals
  split
  · next rest =>
    simp only [String.toList_ofList]
    exact ⟨rfl, (hpattern _).2 (.inr rfl), fun d hd h => by simpa using (hpattern _).1 h⟩
  · next rest hequals =>
    simp only [String.toList_singleton]
    refine ⟨rfl, (hpattern _).2 (.inl rfl), fun d hd h => ?_⟩
    obtain ⟨tail, rfl⟩ := List.head?_eq_some_iff.1 hd
    rcases (hpattern _).1 h with heq | heq
    · cases heq
    · obtain ⟨rfl, -⟩ := List.cons.inj heq
      exact hequals tail rfl

theorem takeEquals_of_longest
    (hpattern : ∀ ds, pattern.Matches (c :: ds) ↔ ds = [] ∨ ds = ['='])
    (hwritten : pattern.Matches (c :: ds))
    (hmaximal : ∀ d ∈ after.head?, ¬pattern.Matches (c :: ds ++ [d])) :
    takeEquals c (ds ++ after) = (String.ofList (c :: ds), after) := by
  rcases (hpattern _).1 hwritten with rfl | rfl
  · cases after with
    | nil => rfl
    | cons d after =>
      refine takeEquals_of_ne fun hd => hmaximal d rfl ?_
      exact (hpattern _).2 (.inr (congrArg ([·]) hd))
  · rfl

theorem not_isLetter_of_isNumberPart (h : isNumberPart c = true) : ¬Text.isLetter c = true := by
  intro hletter
  exact absurd (le_of_isLetter hletter) (Nat.not_le.2 (lt_of_isNumberPart h))

theorem matches_number_iff (hc : isNumberPart c = true) (ds : List Char) :
    Pattern.number.Matches (c :: ds) ↔ ∀ d ∈ ds, isNumberPart d = true :=
  matches_number_cons.trans (and_iff_right hc)

theorem matches_identifier_iff (hc : Text.isLetter c = true) (ds : List Char) :
    Pattern.identifier.Matches (c :: ds) ↔ ∀ d ∈ ds, isNamePart d = true :=
  matches_identifier_cons.trans (and_iff_right hc)

theorem matches_comparison_iff (hc : c ∈ ['<', '>', '=', '!']) (ds : List Char) :
    Pattern.comparison.Matches (c :: ds) ↔ ds = [] ∨ ds = ['='] :=
  matches_comparison_cons.trans (and_iff_right hc)

theorem matches_assign_iff (ds : List Char) :
    Pattern.assign.Matches (':' :: ds) ↔ ds = [] ∨ ds = ['='] :=
  matches_assign_cons.trans (and_iff_right rfl)

theorem isLongest_comparison (hc : c ∈ ['<', '>', '=', '!']) :
    c :: cs = (comparison (takeEquals c cs).1).text.toList ++ (takeEquals c cs).2 ∧
      (comparison (takeEquals c cs).1).IsLongest (takeEquals c cs).2 := by
  obtain ⟨hsplit, hwritten, hmaximal⟩ := longest_takeEquals (matches_comparison_iff hc) cs
  exact ⟨hsplit, hwritten, hmaximal⟩

theorem isLongest_mark (htoken : token.pattern = .mark) (htext : token.text.toList = [c])
    (hc : c ∈ ['+', '-', '*', '/', ',', '(', ')', ';']) :
    c :: cs = token.text.toList ++ cs ∧ token.IsLongest cs := by
  refine ⟨by rw [htext]; rfl, ?_, fun d hd => ?_⟩
  · rw [htoken, htext]
    exact matches_mark_cons.2 ⟨hc, rfl⟩
  · rw [htoken, htext]
    exact fun h => nomatch (matches_mark_cons.1 h).2

theorem isLongest_of_ofMark? (h : ofMark? c cs = some (token, after)) :
    c :: cs = token.text.toList ++ after ∧ token.IsLongest after := by
  unfold ofMark? at h
  split at h
  case h_14 => cases h
  case h_9 =>
    cases h
    obtain ⟨hsplit, hwritten, hmaximal⟩ := longest_takeEquals matches_assign_iff cs
    exact ⟨hsplit, hwritten, hmaximal⟩
  case h_10 | h_11 | h_12 | h_13 =>
    cases h
    exact isLongest_comparison (by decide)
  all_goals
    cases h
    exact isLongest_mark rfl rfl (by decide)

theorem isLongest_span {p : Char → Bool}
    (hpattern : ∀ ds, token.pattern.Matches (c :: ds) ↔ ∀ d ∈ ds, p d = true)
    (htext : token.text.toList = c :: cs.takeWhile p) :
    c :: cs = token.text.toList ++ cs.dropWhile p ∧ token.IsLongest (cs.dropWhile p) := by
  obtain ⟨hwritten, hmaximal⟩ := longest_span hpattern cs
  rw [← htext] at hwritten hmaximal
  refine ⟨?_, hwritten, hmaximal⟩
  rw [htext, List.cons_append, List.takeWhile_append_dropWhile]

theorem isLongest_of_first? (h : first? c cs = some (token, after)) :
    c :: cs = token.text.toList ++ after ∧ token.IsLongest after := by
  unfold first? at h
  split at h
  · next hnumber =>
    cases h
    exact isLongest_span (matches_number_iff hnumber) String.toList_ofList
  · split at h
    · next hletter =>
      cases h
      exact isLongest_span (matches_identifier_iff hletter) String.toList_ofList
    · exact isLongest_of_ofMark? h

theorem first?_comparison (hc : c ∈ ['<', '>', '=', '!']) (cs : List Char) :
    first? c cs = some (comparison (takeEquals c cs).1, (takeEquals c cs).2) := by
  simp only [List.mem_cons, List.not_mem_nil, or_false] at hc
  rcases hc with rfl | rfl | rfl | rfl <;> rfl

theorem first?_assign (cs : List Char) :
    first? ':' cs = some (assign (takeEquals ':' cs).1, (takeEquals ':' cs).2) :=
  rfl

theorem first?_mark (hc : c ∈ ['+', '-', '*', '/', ',', '(', ')', ';']) (cs : List Char) :
    ∃ token, first? c cs = some (token, cs) := by
  simp only [List.mem_cons, List.not_mem_nil, or_false] at hc
  rcases hc with rfl | rfl | rfl | rfl | rfl | rfl | rfl | rfl <;> exact ⟨_, rfl⟩

theorem eq_ofList {s : String} (h : s.toList = cs) : String.ofList cs = s := by
  rw [← h, String.ofList_toList]

theorem first?_of_isLongest (htoken : token.IsLongest after)
    (hsplit : c :: cs = token.text.toList ++ after) : first? c cs = some (token, after) := by
  obtain ⟨hwritten, hmaximal⟩ := htoken
  cases htext : token.text.toList with
  | nil => exact absurd (htext ▸ hwritten) (Pattern.not_matches_nil _)
  | cons c' ds =>
    rw [htext] at hwritten hmaximal
    rw [htext, List.cons_append] at hsplit
    obtain ⟨rfl, rfl⟩ := List.cons.inj hsplit
    -- the first character settles which kind of token is scanned
    cases token with
    | number text =>
      obtain ⟨hc, -⟩ := matches_number_cons.1 hwritten
      obtain ⟨htake, hdrop⟩ := span_of_longest (matches_number_iff hc) hwritten hmaximal
      rw [first?, if_pos hc, htake, hdrop, eq_ofList htext]
      rfl
    | identifier text =>
      obtain ⟨hc, -⟩ := matches_identifier_cons.1 hwritten
      obtain ⟨htake, hdrop⟩ := span_of_longest (matches_identifier_iff hc) hwritten hmaximal
      rw [first?, if_neg fun h => not_isLetter_of_isNumberPart h hc, if_pos hc, htake, hdrop,
        eq_ofList htext]
      rfl
    | comparison text =>
      obtain ⟨hc, -⟩ := matches_comparison_cons.1 hwritten
      have htaken := takeEquals_of_longest (matches_comparison_iff hc) hwritten hmaximal
      rw [first?_comparison hc, htaken, eq_ofList htext]
      rfl
    | assign text =>
      obtain ⟨rfl, -⟩ := matches_assign_cons.1 hwritten
      have htaken := takeEquals_of_longest matches_assign_iff hwritten hmaximal
      rw [first?_assign, htaken, eq_ofList htext]
      rfl
    | operator op =>
      cases op <;> cases htext <;> rfl
    | comma | leftParen | rightParen | semicolon =>
      cases htext
      rfl

theorem first?_ne_none (h : pattern.Matches (c :: ds)) (cs : List Char) : first? c cs ≠ none := by
  intro hnone
  cases pattern with
  | number =>
    obtain ⟨hc, -⟩ := matches_number_cons.1 h
    rw [first?, if_pos hc] at hnone
    cases hnone
  | identifier =>
    obtain ⟨hc, -⟩ := matches_identifier_cons.1 h
    rw [first?, if_neg fun h => not_isLetter_of_isNumberPart h hc, if_pos hc] at hnone
    cases hnone
  | comparison =>
    obtain ⟨hc, -⟩ := matches_comparison_cons.1 h
    rw [first?_comparison hc] at hnone
    cases hnone
  | assign =>
    obtain ⟨rfl, -⟩ := matches_assign_cons.1 h
    rw [first?_assign] at hnone
    cases hnone
  | mark =>
    obtain ⟨hc, -⟩ := matches_mark_cons.1 h
    obtain ⟨token, hfirst⟩ := first?_mark hc cs
    rw [hfirst] at hnone
    cases hnone

theorem first?_eq_some_iff : first? c cs = some (token, after) ↔
    c :: cs = token.text.toList ++ after ∧ token.IsLongest after :=
  ⟨isLongest_of_first?, fun h => first?_of_isLongest h.2 h.1⟩

theorem first?_eq_none_iff : first? c cs = none ↔
    ∀ (pattern : Pattern) (start : List Char), start <+: c :: cs → ¬pattern.Matches start := by
  constructor
  · intro hnone pattern start hstart hmatches
    cases start with
    | nil => exact pattern.not_matches_nil hmatches
    | cons c' ds =>
      obtain ⟨rfl, -⟩ := List.cons_prefix_cons.1 hstart
      exact first?_ne_none hmatches cs hnone
  · intro h
    cases hfirst : first? c cs with
    | none => rfl
    | some result =>
      obtain ⟨hsplit, htoken⟩ := first?_eq_some_iff.1 hfirst
      exact absurd htoken.written (h _ _ (hsplit ▸ List.prefix_append ..))

end IndicatorFormula.Token
