import IndicatorFormula.SeriesArgument

/-!
The arguments of the command: the formula or the path of its file, and options in any order.

The value of an option is attached (`-sV`, `-s=V`, `--series=V`) or the next argument, unless that
one looks like an option. An attached value is accepted at once. A value of its own is accepted
when the argument behind it has been recognised, or at the end; an argument that cannot be
recognised is thus reported before it. After `--` no argument is an option.
-/

namespace IndicatorFormula.Command

/-- Options without a value. -/
inductive Switch
  | file
  | pretty
  | help
  | version
  deriving DecidableEq, Repr

/-- Options with a value. -/
inductive Setting
  | data
  | series
  deriving DecidableEq, Repr

inductive Flag
  | switch (s : Switch)
  | setting (s : Setting)
  deriving DecidableEq, Repr

def Flag.ofShort? : Char → Option Flag
  | 'f' => some (.switch .file)
  | 'p' => some (.switch .pretty)
  | 'h' => some (.switch .help)
  | 'V' => some (.switch .version)
  | 'd' => some (.setting .data)
  | 's' => some (.setting .series)
  | _ => none

/-- A long name is never abbreviated. -/
def Flag.ofLong? : String → Option Flag
  | "file" => some (.switch .file)
  | "pretty" => some (.switch .pretty)
  | "help" => some (.switch .help)
  | "version" => some (.switch .version)
  | "data" => some (.setting .data)
  | "series" => some (.setting .series)
  | _ => none

/-- Why the arguments ask for no run. -/
inductive Refusal
  | help
  | version
  | unknownArgument (argument : String)
  | missingContents
  | missingValue (setting : Setting)
  | unneededValue (switch : Switch)
  | repeatedSwitch (switch : Switch)
  | repeatedSetting (setting : Setting)
  | badSeries (cause : NamedSeries.Error)
  deriving DecidableEq, Repr

structure Arguments where
  contents : String
  isFile : Bool
  data : Option String
  series : List NamedSeries
  pretty : Bool

/-- The arguments accepted so far. -/
structure Draft where
  contents : Option String
  isFile : Bool
  data : Option String
  series : List NamedSeries
  pretty : Bool

/-- An option whose value is an argument of its own, and that value once it has come. -/
structure Pending where
  setting : Setting
  value : Option String

namespace Draft

def empty : Draft :=
  ⟨none, false, none, [], false⟩

def raise (draft : Draft) : Switch → Except Refusal Draft
  | .help => .error .help
  | .version => .error .version
  | .file =>
    if draft.isFile then .error (.repeatedSwitch .file) else .ok { draft with isFile := true }
  | .pretty =>
    if draft.pretty then .error (.repeatedSwitch .pretty) else .ok { draft with pretty := true }

/-- A series may be given again, the path of the data file may not. -/
def accept (draft : Draft) (setting : Setting) (value : String) : Except Refusal Draft :=
  match setting with
  | .data =>
    if draft.data.isSome then .error (.repeatedSetting .data)
    else if value.isEmpty then .error (.missingValue .data)
    else .ok { draft with data := some value }
  | .series =>
    match NamedSeries.read value with
    | .error e => .error (.badSeries e)
    | .ok s => .ok { draft with series := draft.series ++ [s] }

def settle (draft : Draft) : Option Pending → Except Refusal Draft
  | none => .ok draft
  | some ⟨setting, none⟩ => .error (.missingValue setting)
  | some ⟨setting, some value⟩ => draft.accept setting value

/-- The letters behind a single dash. A letter that takes a value takes the letters behind it. -/
def readShort (draft : Draft) (pending : Option Pending) :
    List Char → Except Refusal (Draft × Option Pending)
  | [] => .ok (draft, pending)
  | c :: cs =>
    match Flag.ofShort? c with
    | none => .error (.unknownArgument (String.ofList ['-', c]))
    | some (.switch s) => do
      let draft ← draft.settle pending
      let draft ← draft.raise s
      readShort draft none cs
    | some (.setting s) => do
      let draft ← draft.settle pending
      match cs with
      | [] => .ok (draft, some ⟨s, none⟩)
      | '=' :: value => do
        let draft ← draft.accept s (String.ofList value)
        .ok (draft, none)
      | value => do
        let draft ← draft.accept s (String.ofList value)
        .ok (draft, none)

/-- A name behind two dashes, and the value attached to it. -/
def readLong (draft : Draft) (pending : Option Pending) (name : String) (value : Option String) :
    Except Refusal (Draft × Option Pending) :=
  match Flag.ofLong? name, value with
  | none, _ => .error (.unknownArgument ("--" ++ name))
  | some (.switch s), some _ => .error (.unneededValue s)
  | some (.switch s), none => do
    let draft ← draft.settle pending
    let draft ← draft.raise s
    .ok (draft, none)
  | some (.setting s), some value => do
    let draft ← draft.settle pending
    let draft ← draft.accept s value
    .ok (draft, none)
  | some (.setting s), none => do
    let draft ← draft.settle pending
    .ok (draft, some ⟨s, none⟩)

def readContents (draft : Draft) (pending : Option Pending) (argument : String) :
    Except Refusal Draft :=
  if draft.contents.isSome then .error (.unknownArgument argument)
  else do
    let draft ← draft.settle pending
    .ok { draft with contents := some argument }

end Draft

/-- What an argument looks like. A single dash is plain. -/
inductive Shape
  | separator
  | long (name : String) (value : Option String)
  | short (letters : List Char)
  | plain
  deriving DecidableEq, Repr

def Shape.ofLong (cs : List Char) : Shape :=
  let (name, afterName) := cs.span (· != '=')
  long (String.ofList name) (afterName.tail?.map String.ofList)

def Shape.of : List Char → Shape
  | ['-', '-'] => separator
  | '-' :: '-' :: cs => ofLong cs
  | '-' :: c :: cs => short (c :: cs)
  | _ => plain

namespace Draft

/-- Reads on with the given arguments; `literal` after `--`. -/
def readAll (draft : Draft) (pending : Option Pending) (literal : Bool) :
    List String → Except Refusal Draft
  | [] => draft.settle pending
  | argument :: rest =>
    if literal then do
      let draft ← draft.readContents pending argument
      readAll draft none true rest
    else
      match Shape.of argument.toList with
      | .separator => readAll draft pending true rest
      | .long name value => do
        let (draft, pending) ← draft.readLong pending name value
        readAll draft pending false rest
      | .short letters => do
        let (draft, pending) ← draft.readShort pending letters
        readAll draft pending false rest
      | .plain =>
        match pending with
        | some ⟨setting, none⟩ => readAll draft (some ⟨setting, some argument⟩) false rest
        | _ => do
          let draft ← draft.readContents pending argument
          readAll draft none false rest

def finish (draft : Draft) : Except Refusal Arguments :=
  match draft.contents with
  | none => .error .missingContents
  | some contents => .ok ⟨contents, draft.isFile, draft.data, draft.series, draft.pretty⟩

end Draft

def Arguments.read (arguments : List String) : Except Refusal Arguments := do
  let draft ← Draft.empty.readAll none false arguments
  draft.finish

end IndicatorFormula.Command
