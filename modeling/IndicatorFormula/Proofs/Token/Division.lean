import IndicatorFormula.Proofs.Grammar.Semicolons

/-!
The text of a formula divides at its semicolons: it is the texts of its statements, one behind the
other, and blanks (`exists_statementTexts`).
-/

namespace IndicatorFormula

theorem EndsStatement.append {v w : List Lexeme} (hv : EndsStatement v) (hw : EndsStatement w) :
    EndsStatement (v ++ w) := by
  by_cases hnil : w = []
  · rwa [hnil, List.append_nil]
  · exact (endsStatement_append hnil).2 hw

theorem endsStatement_down {lines : Nat} {lexemes : List Lexeme} :
    EndsStatement (lexemes.map (Lexeme.relayout (.down lines))) ↔ EndsStatement lexemes := by
  simp only [EndsStatement, List.getLast?_map, Option.mem_def, Option.map_eq_some_iff,
    forall_exists_index, and_imp, forall_apply_eq_imp_iff₂, Lexeme.relayout, Token.relayout_down]

namespace Token

variable {c : Char} {cs ds after : List Char} {token : Token} {line : Nat}
  {lexemes : List Lexeme}

/-- The text of one statement, its semicolon at the end. -/
def IsStatementText (text : String) : Prop :=
  ∃ w line, Token.lexemes text = .ok (w ++ [⟨.semicolon, line⟩]) ∧ ¬HasSemicolon w

theorem IsStatementText.exists_lexemes {text : String} (h : IsStatementText text) :
    ∃ w, Token.lexemes text = .ok w ∧ EndsStatement w := by
  obtain ⟨w, line, hlexemes, -⟩ := h
  exact ⟨_, hlexemes, endsStatement_nil.semicolon w line⟩

/-! ## One token of a shorter text -/

theorem eq_nil_of_length_append_le (h : (after ++ ds).length ≤ ds.length) : after = [] := by
  rw [List.length_append] at h
  exact List.length_eq_zero_iff.1 (by omega)

theorem span_of_append {p : Char → Bool} (h : (cs ++ ds).dropWhile p = after ++ ds)
    (hafter : after ≠ []) :
    (cs ++ ds).takeWhile p = cs.takeWhile p ∧ cs.dropWhile p = after := by
  have hne : cs.dropWhile p ≠ [] := by
    intro hnil
    rw [List.dropWhile_append, hnil, if_pos List.isEmpty_nil] at h
    exact hafter (eq_nil_of_length_append_le (h ▸ (List.dropWhile_suffix p).length_le))
  obtain ⟨htake, hdrop⟩ := span_append hne ds
  exact ⟨htake, List.append_cancel_right (hdrop.symm.trans h)⟩

theorem takeEquals_of_append (h : (takeEquals c (cs ++ ds)).2 = after ++ ds) (hafter : after ≠ []) :
    (takeEquals c (cs ++ ds)).1 = (takeEquals c cs).1 ∧ (takeEquals c cs).2 = after := by
  cases cs with
  | nil =>
    exact absurd (eq_nil_of_length_append_le (h ▸ length_takeEquals_le c ds)) hafter
  | cons d cs =>
    by_cases hd : d = '='
    · subst hd
      exact ⟨rfl, List.append_cancel_right h⟩
    · rw [List.cons_append, takeEquals_of_ne hd] at h ⊢
      rw [takeEquals_of_ne hd]
      exact ⟨rfl, List.append_cancel_right h⟩

theorem ofMark?_of_append (h : ofMark? c (cs ++ ds) = some (token, after ++ ds))
    (hafter : after ≠ []) : ofMark? c cs = some (token, after) := by
  unfold ofMark? at h ⊢
  split at h
  case h_14 => cases h
  case h_9 | h_10 | h_11 | h_12 | h_13 =>
    obtain ⟨htoken, hrest⟩ := Prod.mk.inj (Option.some.inj h)
    obtain ⟨htext, hafter⟩ := takeEquals_of_append hrest hafter
    rw [← htoken, htext, hafter]
  all_goals
    obtain ⟨htoken, hrest⟩ := Prod.mk.inj (Option.some.inj h)
    rw [← htoken, List.append_cancel_right hrest]

/-- A token is as long with less text behind it, unless nothing is left there. -/
theorem first?_of_append (h : first? c (cs ++ ds) = some (token, after ++ ds))
    (hafter : after ≠ []) : first? c cs = some (token, after) := by
  unfold first? at h ⊢
  split at h
  · next hnumber =>
    obtain ⟨htoken, hrest⟩ := Prod.mk.inj (Option.some.inj h)
    obtain ⟨htake, hdrop⟩ := span_of_append hrest hafter
    rw [if_pos hnumber, ← htoken, htake, hdrop]
  · next hnumber =>
    split at h
    · next hletter =>
      obtain ⟨htoken, hrest⟩ := Prod.mk.inj (Option.some.inj h)
      obtain ⟨htake, hdrop⟩ := span_of_append hrest hafter
      rw [if_neg hnumber, if_pos hletter, ← htoken, htake, hdrop]
    · next hletter =>
      rw [if_neg hnumber, if_neg hletter]
      exact ofMark?_of_append h hafter

theorem suffix_takeEquals (c : Char) (cs : List Char) : (takeEquals c cs).2 <:+ cs := by
  unfold takeEquals
  split
  · exact List.suffix_cons ..
  · exact List.suffix_rfl

theorem suffix_of_first? (h : first? c cs = some (token, after)) : after <:+ cs := by
  unfold first? at h
  split at h
  · cases h
    exact List.dropWhile_suffix _
  · split at h
    · cases h
      exact List.dropWhile_suffix _
    · unfold ofMark? at h
      split at h <;> cases h <;> first | exact List.suffix_rfl | exact suffix_takeEquals ..

theorem first?_semicolon (h : first? c cs = some (semicolon, after)) : c = ';' ∧ after = cs := by
  unfold first? at h
  split at h
  · cases h
  · split at h
    · cases h
    · unfold ofMark? at h
      split at h <;> cases h
      exact ⟨rfl, rfl⟩

theorem first?_semicolon_nil : first? ';' [] = some (semicolon, []) := by
  decide

/-! ## The first statement of a text -/

theorem ne_nil_of_scan (h : scan line cs = .ok lexemes) (hne : lexemes ≠ []) : cs ≠ [] := by
  rintro rfl
  rw [scan] at h
  exact hne (Except.ok.inj h).symm

theorem exists_division (h : scan line cs = .ok lexemes) (hsemicolon : HasSemicolon lexemes) :
    ∃ first rest w later semicolonLine, cs = first ++ rest ∧
      scan line first = .ok (w ++ [⟨.semicolon, semicolonLine⟩]) ∧ ¬HasSemicolon w ∧
        scan (line + first.count '\n') rest = .ok later ∧ later <:+ lexemes := by
  fun_induction scan line cs generalizing lexemes with
  | case1 line =>
    cases h
    exact absurd hsemicolon not_hasSemicolon_nil
  | case2 line rest ih =>
    obtain ⟨first, rest, w, later, semicolonLine, rfl, hfirst, hw, hlater, hsuffix⟩ :=
      ih h hsemicolon
    refine ⟨'\n' :: first, rest, w, later, semicolonLine, rfl, ?_, hw, ?_, hsuffix⟩
    · rw [scan_newline, hfirst]
    · rwa [List.count_cons_self, Nat.add_comm _ 1, ← Nat.add_assoc]
  | case3 line c rest hnewline hseparator ih =>
    obtain ⟨first, rest, w, later, semicolonLine, rfl, hfirst, hw, hlater, hsuffix⟩ :=
      ih h hsemicolon
    refine ⟨c :: first, rest, w, later, semicolonLine, rfl, ?_, hw, ?_, hsuffix⟩
    · rw [scan_separator hnewline hseparator, hfirst]
    · rwa [List.count_cons_of_ne hnewline]
  | case4 | case5 => cases h
  | case6 line c cs hnewline hseparator token after hfirst? later hafter ih =>
    cases h
    by_cases htoken : token = semicolon
    · subst htoken
      obtain ⟨rfl, rfl⟩ := first?_semicolon hfirst?
      refine ⟨[';'], after, [], later, line, rfl, ?_, not_hasSemicolon_nil, hafter,
        List.suffix_cons ..⟩
      rw [scan_token hnewline hseparator first?_semicolon_nil, scan]
      rfl
    · obtain ⟨first, rest, w, final, semicolonLine, rfl, hfirst, hw, hrest, hsuffix⟩ :=
        ih hafter (hsemicolon.tail htoken)
      have hne := ne_nil_of_scan hfirst
        (List.append_ne_nil_of_right_ne_nil w (List.cons_ne_nil _ _))
      obtain ⟨taken, rfl⟩ := suffix_of_first? hfirst?
      rw [← List.append_assoc] at hfirst?
      -- something stands behind the token up to the semicolon, and that ends it
      have hfirst?' := first?_of_append hfirst? hne
      refine ⟨c :: (taken ++ first), rest, ⟨token, line⟩ :: w, final, semicolonLine, ?_, ?_, ?_, ?_,
        hsuffix.trans (List.suffix_cons ..)⟩
      · rw [List.cons_append, List.append_assoc]
      · rw [scan_token hnewline hseparator hfirst?', hfirst]
        rfl
      · exact fun h => hw (h.tail htoken)
      · rwa [List.count_cons_of_ne hnewline, ← count_of_first? hfirst?']

/-! ## All statements of a text -/

theorem exists_scan_of_down {lines : Nat} (h : scan (line + lines) cs = .ok lexemes) :
    ∃ w, scan line cs = .ok w ∧ lexemes = w.map (Lexeme.relayout (.down lines)) := by
  rw [scan_down] at h
  cases hw : scan line cs with
  | error e =>
    rw [hw] at h
    cases h
  | ok w =>
    rw [hw] at h
    exact ⟨w, rfl, (Except.ok.inj h).symm⟩

theorem exists_statementTexts_of_scan {cs : List Char} {lexemes : List Lexeme}
    (h : scan 1 cs = .ok lexemes) (hends : EndsStatement lexemes) :
    ∃ texts blank, String.ofList cs = String.join texts ++ blank ∧
      (∀ text ∈ texts, IsStatementText text) ∧ Token.lexemes blank = .ok [] := by
  by_cases hnil : lexemes = []
  · subst hnil
    refine ⟨[], String.ofList cs, ?_, ?_, ?_⟩
    · rw [String.join_nil, String.empty_append]
    · exact fun _ h => nomatch h
    · rw [Token.lexemes, String.toList_ofList, h]
  · obtain ⟨first, rest, w, later, semicolonLine, hcs, hfirst, hw, hlater, hsuffix⟩ :=
      exists_division h (hends.hasSemicolon hnil)
    have hne := ne_nil_of_scan hfirst (List.append_ne_nil_of_right_ne_nil w (List.cons_ne_nil _ _))
    obtain ⟨below, hbelow, rfl⟩ := exists_scan_of_down hlater
    obtain ⟨texts, blank, hrest, htexts, hblank⟩ :=
      exists_statementTexts_of_scan hbelow (endsStatement_down.1 (hends.suffix hsuffix))
    refine ⟨String.ofList first :: texts, blank, ?_, ?_, hblank⟩
    · rw [hcs, String.ofList_append, hrest, String.join_cons, String.append_assoc]
    · refine List.forall_mem_cons.2 ⟨⟨w, semicolonLine, ?_, hw⟩, htexts⟩
      rw [Token.lexemes, String.toList_ofList, hfirst]
termination_by cs.length
decreasing_by
  -- the first statement has a character, so less is left
  rw [hcs, List.length_append]
  exact Nat.lt_add_of_pos_left (List.length_pos_iff.2 hne)

theorem exists_statementTexts {source : String} (h : Token.lexemes source = .ok lexemes)
    (hends : EndsStatement lexemes) :
    ∃ texts blank, source = String.join texts ++ blank ∧
      (∀ text ∈ texts, IsStatementText text) ∧ Token.lexemes blank = .ok [] := by
  have hdivides := exists_statementTexts_of_scan h hends
  rwa [String.ofList_toList] at hdivides

end Token

end IndicatorFormula
