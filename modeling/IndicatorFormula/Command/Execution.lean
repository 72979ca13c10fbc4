import IndicatorFormula.Command.Arguments
import IndicatorFormula.Command.Folder
import IndicatorFormula.DataFile
import IndicatorFormula.Program
import IndicatorFormula.Report

/-!
A run of the command. The formula is read first, then the data file; the series given as arguments
take the place of those in the file. Where this leaves no series, the run has a demonstration
series.
-/

namespace IndicatorFormula.Command

/-- The report on data that cannot be read stands for that of the JSON reader, which has words of
its own for each text. -/
inductive RunError
  | formulaFile (path : String) (cause : ReadFailure)
  | dataFile (path : String) (cause : ReadFailure)
  | badData
  | failed (cause : Failure)
  deriving DecidableEq, Repr

def RunError.message : RunError → String
  | formulaFile path cause => "Failed to read the formula file '" ++ path ++ "': " ++ cause.message
  | dataFile path cause => "Failed to read the data file '" ++ path ++ "': " ++ cause.message
  | badData => "The data file is not a JSON object of series."
  | failed cause => cause.message

def demonstration : Table Series :=
  Table.empty.insert "CLOSE" [10.0, 12.0, 15.0, 14.0, 16.0, 18.0, 20.0, 19.0, 22.0, 25.0]

def Arguments.paths (arguments : Arguments) : List String :=
  (if arguments.isFile then [arguments.contents] else []) ++ arguments.data.toList

def readFormula (reader : Reader) (arguments : Arguments) : Except RunError String :=
  if arguments.isFile then
    (reader arguments.contents).mapError (.formulaFile arguments.contents)
  else .ok arguments.contents

def readData (reader : Reader) : Option String → Except RunError (Table Series)
  | none => .ok .empty
  | some path =>
    match reader path with
    | .error e => .error (.dataFile path e)
    | .ok text =>
      match DataFile.read? text with
      | none => .error .badData
      | some table => .ok table

def withDemonstration (table : Table Series) : Table Series :=
  if table.isEmpty then demonstration else table

def readInputs (reader : Reader) (arguments : Arguments) : Except RunError (Table Series) :=
  (readData reader arguments.data).map fun table =>
    withDemonstration (table.insertAll (arguments.series.map fun s => (s.name, s.series)))

/-- The text a run prints. -/
def execute (reader : Reader) (arguments : Arguments) : Except RunError String := do
  let source ← readFormula reader arguments
  let inputs ← readInputs reader arguments
  let table ← (Program.run source inputs).mapError .failed
  .ok (Report.render (if arguments.pretty then .indented else .compact) table)

end IndicatorFormula.Command
