import IndicatorFormula.Command.Execution
import IndicatorFormula.Proofs.DataFile.Items
import IndicatorFormula.Proofs.Evaluation.Inversion
import IndicatorFormula.Proofs.Series.Order
import IndicatorFormula.Proofs.Table.Map

/-!
A report is a data file. In either layout it is read back as the table it was made of, with a
missing point in place of each infinite one (`read?_render`), and so a run can be given what another
run has printed (`execute_reads_back`). Both need that the text of each number is read as that
number: the reader scales by powers of ten and may miss the last place of a long one.
-/

namespace IndicatorFormula

open DataFile (Spells SpellsEnded pointItems memberItems separated)

namespace Report

variable {x : Float} {layout : Layout} {table : Table Series}

/-- What a report keeps of a point. -/
def reported (x : Float) : Float :=
  if x.isInf then Series.missing else x

def reportedTable (table : Table Series) : Table Series :=
  table.map (List.map reported)

/-- The text of the point is a number, which is read as the point. -/
def ReadsBack (x : Float) : Prop :=
  DataFile.readPoint? (point x).toList = some (.point x, [])

def PointsReadBack (table : Table Series) : Prop :=
  ∀ entry ∈ table.entries, ∀ x ∈ entry.2, x.isFinite = true → ReadsBack x

theorem spellsEnded_point (h : x.isFinite = true → ReadsBack x) :
    SpellsEnded (point x).toList (pointItems (reported x)) := by
  cases hinf : x.isInf with
  | true =>
    rw [point, reported, hinf, Bool.or_true, if_pos rfl, if_pos rfl]
    exact DataFile.spells_null.ended
  | false =>
    cases hnan : x.isNaN with
    | true =>
      obtain rfl : x = Series.missing := Series.eq_of_isNaN hnan (by decide)
      exact DataFile.spells_null.ended
    | false =>
      rw [reported, hinf, if_neg Bool.false_ne_true]
      exact DataFile.spellsEnded_point (h (Series.isFinite_of_not hnan hinf))

theorem exists_toList_enclose (layout : Layout) (column : Nat) (opening closing : Char)
    (items : List String) :
    ∃ lead tail : List Char, (∀ c ∈ lead, DataFile.isBlank c = true) ∧
      (∀ c ∈ tail, DataFile.isBlank c = true) ∧
      (enclose layout column (String.singleton opening) (String.singleton closing) items).toList =
        opening :: (lead ++ List.intercalate (',' :: lead) (items.map String.toList) ++
          (tail ++ [closing])) := by
  have hspaces (n : Nat) : ∀ c ∈ '\n' :: (spaces n).toList, DataFile.isBlank c = true := by
    intro c hc
    rw [spaces, String.toList_ofList] at hc
    rcases List.mem_cons.1 hc with rfl | hc
    · rfl
    · rw [List.eq_of_mem_replicate hc]
      rfl
  -- a list without elements is closed at once in either layout
  cases items with
  | nil =>
    refine ⟨[], [], List.forall_mem_nil _, List.forall_mem_nil _, ?_⟩
    simp only [enclose, String.toList_append, String.toList_singleton]
    rfl
  | cons item items =>
    cases layout with
    | compact =>
      refine ⟨[], [], List.forall_mem_nil _, List.forall_mem_nil _, ?_⟩
      simp only [enclose, String.toList_append, String.toList_singleton, String.toList_intercalate]
      rfl
    | indented =>
      refine ⟨'\n' :: (spaces (column + 2)).toList, '\n' :: (spaces column).toList, hspaces _,
        hspaces _, ?_⟩
      have hnewline : "\n".toList = ['\n'] := rfl
      have hcomma : ",".toList = [','] := rfl
      simp only [enclose, String.toList_append, String.toList_singleton, String.toList_intercalate,
        hnewline, hcomma, List.append_assoc, List.cons_append, List.nil_append]

/-- An enclosed list spells what its elements spell, in either layout. -/
theorem spells_enclose {opening closing : Char} {first last : DataFile.Item}
    (hopening : Spells [opening] [first]) (hclosing : Spells [closing] [last])
    (hends : DataFile.isNumeralPart closing = false) {α : Type} {text : α → String}
    {is : α → List DataFile.Item} {l : List α} (h : ∀ a ∈ l, SpellsEnded (text a).toList (is a))
    (layout : Layout) (column : Nat) :
    Spells (enclose layout column (String.singleton opening) (String.singleton closing)
      (l.map text)).toList (first :: (separated is l ++ [last])) := by
  obtain ⟨lead, tail, hlead, htail, heq⟩ :=
    exists_toList_enclose layout column opening closing (l.map text)
  rw [heq, List.map_map]
  exact DataFile.spells_bracketed hopening hclosing hends hlead htail h

theorem separated_map {α β : Type} (f : α → β) (is : β → List DataFile.Item) (l : List α) :
    separated is (l.map f) = separated (fun a => is (f a)) l := by
  rw [separated, separated, List.map_map]
  rfl

theorem exists_member_eq (layout : Layout) (entry : String × Series) :
    ∃ colon : String, Spells colon.toList [.colon] ∧
      member layout entry =
        quote entry.1 ++ colon ++ enclose layout 2 "[" "]" (entry.2.map point) := by
  have hmark : Spells [':'] [.colon] := DataFile.spells_mark rfl fun _ => rfl
  have hspace : Spells [' '] [] := DataFile.spells_blank (List.forall_mem_singleton.2 rfl)
  cases layout with
  | compact => exact ⟨":", hmark, rfl⟩
  | indented => exact ⟨": ", hmark.append hspace, rfl⟩

theorem spells_member {entry : String × Series}
    (h : ∀ x ∈ entry.2, x.isFinite = true → ReadsBack x) (layout : Layout) :
    Spells (member layout entry).toList (memberItems (entry.1, entry.2.map reported)) := by
  obtain ⟨colon, hcolon, hmember⟩ := exists_member_eq layout entry
  have hname := DataFile.spells_quoted entry.1
  have hpoints := spells_enclose (DataFile.spells_mark (c := '[') rfl fun _ => rfl)
    (DataFile.spells_mark (c := ']') rfl fun _ => rfl) rfl
    (fun x hx => spellsEnded_point (h x hx)) layout 2
  rw [memberItems, separated_map, hmember, String.toList_append, String.toList_append, quote,
    String.toList_ofList]
  exact (hname.append hcolon).append hpoints

theorem spells_render (h : PointsReadBack table) (layout : Layout) :
    Spells (render layout table).toList
      (.openObject :: (separated memberItems (reportedTable table).entries ++ [.closeObject])) := by
  have hmembers := spells_enclose (DataFile.spells_mark (c := '\x7b') rfl fun _ => rfl)
    (DataFile.spells_mark (c := '\x7d') rfl fun _ => rfl) rfl
    (fun entry hentry => (spells_member (h entry hentry) layout).ended) layout 0
  rw [reportedTable, Table.map, separated_map]
  exact hmembers

theorem members?_render (h : PointsReadBack table) (layout : Layout) {blank : String}
    (hblank : ∀ c ∈ blank.toList, DataFile.isBlank c = true) :
    DataFile.members? (render layout table ++ blank) = some (reportedTable table).entries := by
  have hspells := (spells_render h layout).append (DataFile.spells_blank hblank)
  have hitems := hspells []
  rw [List.append_nil, List.append_nil, DataFile.items?_nil, Option.map_some, List.append_nil]
    at hitems
  rw [DataFile.members?, String.toList_append, hitems]
  exact DataFile.readObject?_separated _

theorem read?_render (h : PointsReadBack table) (layout : Layout) {blank : String}
    (hblank : ∀ c ∈ blank.toList, DataFile.isBlank c = true) :
    DataFile.read? (render layout table ++ blank) = some (reportedTable table) := by
  rw [DataFile.read?_eq_map, members?_render h layout hblank, Option.map_some,
    Table.ofList_entries]

end Report

namespace Command

variable {reader : Reader} {arguments : Arguments} {table : Table Series} {text path : String}

/-- The table a run prints. -/
def computed (reader : Reader) (arguments : Arguments) : Except RunError (Table Series) := do
  let source ← readFormula reader arguments
  let inputs ← readInputs reader arguments
  (Program.run source inputs).mapError .failed

theorem execute_eq_ok_iff : execute reader arguments = .ok text ↔
    ∃ table, computed reader arguments = .ok table ∧
      Report.render (if arguments.pretty then .indented else .compact) table = text := by
  simp only [execute, computed, except_bind_eq_ok_iff, Except.ok.injEq]
  constructor
  · rintro ⟨source, hsource, inputs, hinputs, table, htable, htext⟩
    exact ⟨table, ⟨source, hsource, inputs, hinputs, htable⟩, htext⟩
  · rintro ⟨table, ⟨source, hsource, inputs, hinputs, htable⟩, htext⟩
    exact ⟨source, hsource, inputs, hinputs, table, htable, htext⟩

theorem readData_of_read? (hreader : reader path = .ok text)
    (hread : DataFile.read? text = some table) : readData reader (some path) = .ok table := by
  simp only [readData, hreader, hread]

theorem readInputs_of_readData (hdata : readData reader arguments.data = .ok table)
    (hseries : arguments.series = []) :
    readInputs reader arguments = .ok (withDemonstration table) := by
  rw [readInputs, hdata, hseries]
  rfl

/-- The text of a run, with blanks behind it, is a data file of the table printed, whose names come
in order. An infinite point comes back missing. -/
theorem execute_reads_back (h : execute reader arguments = .ok text) :
    ∃ table, computed reader arguments = .ok table ∧
      (Report.PointsReadBack table →
        ∀ blank : String, (∀ c ∈ blank.toList, DataFile.isBlank c = true) →
          (∃ members, DataFile.members? (text ++ blank) = some members ∧
            members.map Prod.fst = table.names ∧ members.Pairwise fun a b => a.1 < b.1) ∧
          ∀ (reader' : Reader) (path : String), reader' path = .ok (text ++ blank) →
            readData reader' (some path) = .ok (Report.reportedTable table) ∧
              ∀ arguments' : Arguments, arguments'.data = some path → arguments'.series = [] →
                readInputs reader' arguments' =
                  .ok (withDemonstration (Report.reportedTable table))) := by
  obtain ⟨table, htable, rfl⟩ := execute_eq_ok_iff.1 h
  refine ⟨table, htable, fun hpoints blank hblank => ⟨?_, fun reader' path hreader => ?_⟩⟩
  · exact ⟨(Report.reportedTable table).entries, Report.members?_render hpoints _ hblank,
      Table.names_map _ table, (Report.reportedTable table).ordered⟩
  · have hdata := readData_of_read? hreader (Report.read?_render hpoints _ hblank)
    refine ⟨hdata, fun arguments' hpath hseries => ?_⟩
    rw [← hpath] at hdata
    exact readInputs_of_readData hdata hseries

theorem execute_reads_back_gaps :
    execute (fun _ => .error .notFound)
        ⟨"V:=CLOSE;", false, none, [⟨"CLOSE", [1.5, Series.missing, 1.0 / 0.0, -0.0]⟩], false⟩ =
      .ok "\x7b\"V\":[1.5,null,null,-0.0]\x7d" ∧
    readInputs (fun _ => .ok ("\x7b\"V\":[1.5,null,null,-0.0]\x7d" ++ "\n"))
        ⟨"W:=V;", false, some "report.json", [], true⟩ =
      .ok (Table.empty.insert "V" [1.5, Series.missing, Series.missing, -0.0]) := by
  have hrun : execute (fun _ => .error .notFound)
      ⟨"V:=CLOSE;", false, none, [⟨"CLOSE", [1.5, Series.missing, 1.0 / 0.0, -0.0]⟩], false⟩ =
        .ok "\x7b\"V\":[1.5,null,null,-0.0]\x7d" := ?run
  case run => with_unfolding_all rfl
  obtain ⟨table, htable, hback⟩ := execute_reads_back hrun
  obtain rfl : Table.empty.insert "V" [1.5, Series.missing, 1.0 / 0.0, -0.0] = table := by
    refine Except.ok.inj (Eq.trans (Eq.symm ?_) htable)
    with_unfolding_all rfl
  have hpoints : Report.PointsReadBack
      (Table.empty.insert "V" [1.5, Series.missing, 1.0 / 0.0, -0.0]) := by
    intro entry hentry x hx hfinite
    obtain rfl := List.mem_singleton.1 hentry
    simp only [List.mem_cons, List.not_mem_nil, or_false] at hx
    rcases hx with rfl | rfl | rfl | rfl
    · with_unfolding_all rfl
    · exact absurd hfinite (by decide)
    · exact absurd hfinite (by decide)
    · with_unfolding_all rfl
  obtain ⟨-, hfile⟩ := hback hpoints "\n" (List.forall_mem_singleton.2 rfl)
  obtain ⟨-, hinputs⟩ := hfile (fun _ => .ok _) "report.json" rfl
  refine ⟨hrun, (hinputs _ rfl rfl).trans ?_⟩
  with_unfolding_all rfl

end Command

end IndicatorFormula
