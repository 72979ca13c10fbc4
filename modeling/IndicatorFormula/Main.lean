import IndicatorFormula.Command.Execution

/-!
The command line: arguments in, the report on standard output, anything else on standard error.
-/

namespace IndicatorFormula.Command

def usage : String :=
  "Usage: indicator-formula [OPTIONS] <CONTENTS>\n\n" ++
  "Evaluates a formula such as V1:=MA(CLOSE,5); and prints every assigned series as JSON.\n\n" ++
  "Options:\n" ++
  "  -f, --file             CONTENTS is the path of a file with the formula\n" ++
  "  -d, --data <PATH>      JSON file with an object of named series\n" ++
  "  -s, --series <SERIES>  a series such as CLOSE=10,12,15; may be repeated\n" ++
  "  -p, --pretty           indent the output\n" ++
  "  -h, --help             print this text\n" ++
  "  -V, --version          print the version"

def describe : Refusal → String
  | .help => usage
  | .version => "indicator-formula 0.1.0"
  | .unknownArgument argument => "error: unexpected argument '" ++ argument ++ "'"
  | .missingContents => "error: the argument <CONTENTS> was not provided"
  | .missingValue .data => "error: a value is required for '--data <PATH>'"
  | .missingValue .series => "error: a value is required for '--series <SERIES>'"
  | .unneededValue _ => "error: a value was given to an option that takes none"
  | .repeatedSwitch _ | .repeatedSetting _ => "error: an option was given more than once"
  | .badSeries e => "error: invalid value for '--series <SERIES>': " ++ e.message

def readFailure : IO.Error → ReadFailure
  | .noFileOrDirectory .. => .notFound
  | .inappropriateType _ 21 _ => .isDirectory
  | .inappropriateType _ _ "not a directory" => .notDirectory
  | e => .other (toString e)

def readText (path : String) : IO (String × Except ReadFailure String) := do
  try
    let bytes ← IO.FS.readBinFile path
    return (path, decodeText bytes)
  catch e => return (path, .error (readFailure e))

def run (arguments : Arguments) : IO UInt32 := do
  let files ← arguments.paths.mapM readText
  match execute (fun path => (files.lookup path).getD (.error .notFound)) arguments with
  | .ok report =>
    IO.println report
    return 0
  | .error e =>
    IO.eprintln e.message
    return 1

end IndicatorFormula.Command

open IndicatorFormula.Command in
def main (arguments : List String) : IO UInt32 := do
  match Arguments.read arguments with
  | .ok arguments => run arguments
  | .error .help =>
    IO.println (describe .help)
    return 0
  | .error .version =>
    IO.println (describe .version)
    return 0
  | .error refusal =>
    IO.eprintln (describe refusal)
    return 2
