import IndicatorFormula.Proofs.Layout.Execution
import IndicatorFormula.Proofs.Token.Spacing

/-!
The layout of a formula makes no difference. Texts whose tokens differ in nothing but their lines
and the marks of assignments give the same tables, and failures that differ in nothing else; and
blanks put between the tokens of a text move them to other lines and do no more
(`run_ignores_layout`).
-/

namespace IndicatorFormula

/-- Everything on one line, and every assignment marked the same. -/
def Relayout.plain : Relayout :=
  ⟨fun _ => 0, fun _ => ":="⟩

namespace Program

variable {source source' : String} {lexemes lexemes' : List Lexeme}

theorem run_relayout_plain (h : Token.lexemes source = .ok lexemes) (table : Table Series) :
    (run source table).mapError (Failure.relayout .plain) =
      match Inputs.ofTable table with
      | .error e => .error (.uneven e)
      | .ok inputs => runLexemes inputs 0 .empty (lexemes.map (Lexeme.relayout .plain)) := by
  unfold run
  cases Inputs.ofTable table with
  | error cause => rfl
  | ok inputs =>
    simp only [runSource, h]
    exact (runLexemes_relayout .plain).symm

theorem run_ignores_layout (h : Token.lexemes source = .ok lexemes) :
    (∀ source' lexemes', Token.lexemes source' = .ok lexemes' →
      lexemes.map (Lexeme.relayout .plain) = lexemes'.map (Lexeme.relayout .plain) →
        ∀ table, (run source table).mapError (Failure.relayout .plain) =
          (run source' table).mapError (Failure.relayout .plain)) ∧
    (∀ stretches, Token.AreStretches [] stretches →
      Token.Stretch.original stretches = source.toList →
        stretches.flatMap Token.Stretch.lexemes = lexemes ∧
          Token.lexemes (String.ofList (Token.Stretch.spaced stretches)) =
            .ok (Token.Stretch.lowered 0 stretches)) ∧
    ∀ parts : List (List Char × List Lexeme), parts ≠ [] →
      (∀ part ∈ parts, ∀ c ∈ part.1, Token.IsBlank c) → parts.flatMap Prod.snd = lexemes →
        ∃ stretches, Token.AreStretches [] stretches ∧
          Token.Stretch.original stretches = source.toList ∧
            stretches.map (fun stretch => (stretch.inserted, stretch.lexemes)) = parts := by
  refine ⟨fun source' lexemes' h' heq table => ?_, fun stretches hstretches hsource => ⟨?_, ?_⟩,
    fun parts hne hblank heq => ?_⟩
  · rw [run_relayout_plain h, run_relayout_plain h', heq]
  · have horiginal := Token.lexemes_original hstretches
    rw [hsource, String.ofList_toList, h] at horiginal
    exact (Except.ok.inj horiginal).symm
  · exact Token.lexemes_spaced hstretches
  · subst heq
    exact (Token.divides_of_lexemes h).exists_stretches hne hblank

theorem run_ignores_layout_next_line :
    Token.lexemes "A:=B;" = .ok [⟨.identifier "A", 1⟩, ⟨.assign ":=", 1⟩, ⟨.identifier "B", 1⟩,
        ⟨.semicolon, 1⟩] ∧
      Token.lexemes "A:\nB;" = .ok [⟨.identifier "A", 1⟩, ⟨.assign ":", 1⟩, ⟨.identifier "B", 2⟩,
        ⟨.semicolon, 2⟩] ∧
      (run "A:=B;" .empty).mapError (Failure.relayout .plain) =
        (run "A:\nB;" .empty).mapError (Failure.relayout .plain) ∧
      ∃ stretches, Token.Stretch.original stretches = "A:=B;".toList ∧
        stretches.map Token.Stretch.inserted = [[], ['\n']] ∧
        Token.lexemes (String.ofList (Token.Stretch.spaced stretches)) =
          .ok [⟨.identifier "A", 1⟩, ⟨.assign ":=", 1⟩, ⟨.identifier "B", 2⟩, ⟨.semicolon, 2⟩] := by
  have h : Token.lexemes "A:=B;" = .ok [⟨.identifier "A", 1⟩, ⟨.assign ":=", 1⟩,
      ⟨.identifier "B", 1⟩, ⟨.semicolon, 1⟩] := by
    with_unfolding_all rfl
  have h' : Token.lexemes "A:\nB;" = .ok [⟨.identifier "A", 1⟩, ⟨.assign ":", 1⟩,
      ⟨.identifier "B", 2⟩, ⟨.semicolon, 2⟩] := by
    with_unfolding_all rfl
  obtain ⟨hruns, hspaced, hcut⟩ := run_ignores_layout h
  obtain ⟨stretches, hstretches, hsource, hparts⟩ :=
    hcut [([], [⟨.identifier "A", 1⟩, ⟨.assign ":=", 1⟩]),
        (['\n'], [⟨.identifier "B", 1⟩, ⟨.semicolon, 1⟩])] (List.cons_ne_nil _ _)
      (List.forall_mem_cons.2 ⟨fun _ h => (nomatch h), List.forall_mem_singleton.2
        (List.forall_mem_singleton.2 (by decide))⟩) rfl
  refine ⟨h, h', hruns _ _ h' rfl .empty, stretches, hsource, ?_⟩
  have hlexemes := (hspaced stretches hstretches hsource).2
  obtain _ | ⟨⟨_, front, _⟩, _ | ⟨⟨_, back, _⟩, _ | ⟨third, later⟩⟩⟩ := stretches
  · cases hparts
  · cases hparts
  · cases hparts
    exact ⟨rfl, hlexemes⟩
  · cases hparts

end Program

end IndicatorFormula
