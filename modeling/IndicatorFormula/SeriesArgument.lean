import IndicatorFormula.Decimal.Reading
import IndicatorFormula.Text.Blank

/-!
A series written in one argument, `NAME=v1,v2,...`. A blank field is a missing point. Blanks
around the fields are dropped, and so is one comma at the end.
-/

namespace IndicatorFormula

structure NamedSeries where
  name : String
  series : Series

namespace NamedSeries

inductive Error
  | noEquals (argument : String)
  | noName (argument : String)
  | badValue (value name : String)
  deriving DecidableEq, Repr

def Error.message : Error → String
  | noEquals argument => "expected NAME=v1,v2,..., found '" ++ argument ++ "'"
  | noName argument => "missing series name in '" ++ argument ++ "'"
  | badValue value name =>
    "invalid value '" ++ value ++ "' in series " ++ name ++ ": invalid float literal"

/-- The parts between commas; there is always one. -/
def splitFields : List Char → List (List Char)
  | [] => [[]]
  | c :: cs =>
    if c = ',' then [] :: splitFields cs
    else
      match splitFields cs with
      | [] => [[c]]
      | field :: fields => (c :: field) :: fields

def dropFinalComma (cs : List Char) : List Char :=
  if cs.getLast? = some ',' then cs.dropLast else cs

def fields (values : List Char) : List (List Char) :=
  match dropFinalComma (Text.trim values) with
  | [] => []
  | cs => (splitFields cs).map Text.trim

def readField (name : String) (field : List Char) : Except Error Float :=
  if field.isEmpty then .ok Series.missing
  else
    let value := String.ofList field
    match Decimal.readFloat? value with
    | none => .error (.badValue value name)
    | some x => .ok x

/-- The name is what stands before the first equals sign. -/
def read (argument : String) : Except Error NamedSeries :=
  let (name, afterName) := argument.toList.span (· != '=')
  match afterName with
  | [] => .error (.noEquals argument)
  | _ :: values =>
    if name.isEmpty then .error (.noName argument)
    else
      let name := String.ofList name
      ((fields values).mapM (readField name)).map fun series => ⟨name, series⟩

end NamedSeries

end IndicatorFormula
