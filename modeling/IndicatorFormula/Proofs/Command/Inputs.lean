import IndicatorFormula.Command.Execution
import IndicatorFormula.Proofs.DataFile.Objects
import IndicatorFormula.Table.Lemmas

/-!
Where the inputs of a run come from: the arrays of the data file, and over them the series given as
arguments. The demonstration series stands in wherever these are no series at all
(`readInputs_eq_ok_iff`), and so also for a data file that was given and holds none.
-/

namespace IndicatorFormula.Command

variable {reader : Reader} {data : Option String} {object : DataFile.Object} {table : Table Series}
  {arguments : Arguments}

/-- The members that the option for a data file brings in. -/
inductive IsGiven (reader : Reader) : Option String → DataFile.Object → Prop
  | nothing : IsGiven reader none []
  | file {path text : String} {object : DataFile.Object} :
      reader path = .ok text → DataFile.Holds text object → IsGiven reader (some path) object

/-- The table has the last series argument of each name or else the last array of that name, and no
other name. -/
def Gathers (object : DataFile.Object) (series : List NamedSeries) (table : Table Series) : Prop :=
  ∀ name, table.get? name = (Table.lastValue? (series.map fun s => (s.name, s.series)) name).or
    ((Table.lastValue? object name).map DataFile.withGaps)

theorem readData_eq_ok_iff : readData reader data = .ok table ↔
    ∃ object, IsGiven reader data object ∧ Table.ofList object.entries = table := by
  constructor
  · intro h
    unfold readData at h
    split at h
    · cases h
      exact ⟨[], .nothing, rfl⟩
    · split at h
      · cases h
      · next hreader =>
        split at h
        · cases h
        · next hread =>
          cases h
          obtain ⟨object, hobject, htable⟩ := DataFile.read?_eq_some_iff.1 hread
          exact ⟨object, .file hreader hobject, htable⟩
  · rintro ⟨object, hgiven, rfl⟩
    cases hgiven with
    | nothing => rfl
    | file hreader hobject =>
      simp only [readData, hreader, DataFile.read?_eq_some_iff.2 ⟨object, hobject, rfl⟩]

theorem readInputs_eq_ok_iff_readData : readInputs reader arguments = .ok table ↔
    ∃ gathered, readData reader arguments.data = .ok gathered ∧
      withDemonstration (gathered.insertAll (arguments.series.map fun s => (s.name, s.series))) =
        table := by
  unfold readInputs
  cases readData reader arguments.data with
  | error e => exact iff_of_false (fun h => nomatch h) fun ⟨_, h, _⟩ => nomatch h
  | ok gathered => simp only [Except.map, Except.ok.injEq, exists_eq_left']

theorem readInputs_eq_ok_iff_isGiven : readInputs reader arguments = .ok table ↔
    ∃ object, IsGiven reader arguments.data object ∧
      withDemonstration (Table.ofList
        (object.entries ++ arguments.series.map fun s => (s.name, s.series))) = table := by
  rw [readInputs_eq_ok_iff_readData]
  constructor
  · rintro ⟨gathered, hread, rfl⟩
    obtain ⟨object, hgiven, rfl⟩ := readData_eq_ok_iff.1 hread
    exact ⟨object, hgiven, by rw [Table.insertAll_ofList]⟩
  · rintro ⟨object, hgiven, rfl⟩
    exact ⟨_, readData_eq_ok_iff.2 ⟨object, hgiven, rfl⟩, by rw [Table.insertAll_ofList]⟩

theorem gathers_ofList_iff {series : List NamedSeries} : Gathers object series table ↔
    Table.ofList (object.entries ++ series.map fun s => (s.name, s.series)) = table := by
  -- what was inserted last is found, and the arguments come behind the file
  have hget? (name : String) :
      (Table.ofList (object.entries ++ series.map fun s => (s.name, s.series))).get? name =
        (Table.lastValue? (series.map fun s => (s.name, s.series)) name).or
          ((Table.lastValue? object name).map DataFile.withGaps) := by
    rw [Table.get?_ofList, Table.lastValue?_append, DataFile.Object.entries, Table.lastValue?_map]
  constructor
  · intro h
    exact Table.ext_get? fun name => (hget? name).trans (h name).symm
  · rintro rfl
    exact hget?

theorem entries_append_eq_nil_iff {series : List NamedSeries} :
    object.entries ++ series.map (fun s => (s.name, s.series)) = [] ↔
      object = [] ∧ series = [] := by
  rw [List.append_eq_nil_iff, DataFile.Object.entries, List.map_eq_nil_iff, List.map_eq_nil_iff]

/-- The inputs of a run are the series gathered, where there are any, and the demonstration series
where there are none. -/
theorem readInputs_eq_ok_iff : readInputs reader arguments = .ok table ↔
    ∃ object, IsGiven reader arguments.data object ∧
      (object = [] ∧ arguments.series = [] ∧ table = demonstration ∨
        ¬(object = [] ∧ arguments.series = []) ∧ Gathers object arguments.series table) := by
  rw [readInputs_eq_ok_iff_isGiven]
  refine exists_congr fun object => and_congr_right fun _ => ?_
  simp only [withDemonstration, Table.isEmpty_ofList_iff, entries_append_eq_nil_iff]
  by_cases hnone : object = [] ∧ arguments.series = []
  · rw [if_pos hnone]
    simp only [hnone, and_self, not_true_eq_false, true_and, false_and, or_false, eq_comm]
  · rw [if_neg hnone, gathers_ofList_iff, ← and_assoc]
    simp only [hnone, not_false_eq_true, false_and, true_and, false_or]

/-- A data file without members is given, and the run has the demonstration series. -/
theorem not_demonstration_only_if_neither : ¬∀ (reader : Reader) (arguments : Arguments) table,
    readInputs reader arguments = .ok table →
      (arguments.data = none ∧ arguments.series = [] → table = demonstration) ∧
      (¬(arguments.data = none ∧ arguments.series = []) →
        ∃ object, IsGiven reader arguments.data object ∧
          Gathers object arguments.series table) := by
  intro hclaim
  have hholds (object : DataFile.Object) (h : DataFile.Holds "\x7b\x7d" object) : object = [] := by
    have hentries := DataFile.members?_eq_some_iff.2 ⟨object, h, rfl⟩
    have hmembers : DataFile.members? "\x7b\x7d" = some [] := by with_unfolding_all rfl
    exact List.map_eq_nil_iff.1 (Option.some_inj.1 (hentries.symm.trans hmembers))
  have hrun : readInputs (fun _ => .ok "\x7b\x7d")
      ⟨"V:=CLOSE;", false, some "prices.json", [], false⟩ = .ok demonstration := by
    with_unfolding_all rfl
  obtain ⟨object, hgiven, hgathers⟩ := (hclaim _ _ _ hrun).2 fun h => Option.some_ne_none _ h.1
  cases hgiven with
  | file hreader hobject =>
    cases hreader
    cases hholds object hobject
    have hclose := hgathers "CLOSE"
    cases hclose

end IndicatorFormula.Command
