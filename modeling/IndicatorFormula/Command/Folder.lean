/-!
Reading the text of files by their paths, and a folder that holds only files: no other folder is
in it, and nothing outside it is a file.
-/

namespace IndicatorFormula.Command

/-- Why a file cannot be read as text. -/
inductive ReadFailure
  | notFound
  | notDirectory
  | isDirectory
  | notText
  | other (text : String)
  deriving DecidableEq, Repr

def ReadFailure.message : ReadFailure → String
  | notFound => "No such file or directory (os error 2)"
  | notDirectory => "Not a directory (os error 20)"
  | isDirectory => "Is a directory (os error 21)"
  | notText => "stream did not contain valid UTF-8"
  | other text => text

abbrev Reader := String → Except ReadFailure String

def decodeText (bytes : ByteArray) : Except ReadFailure String :=
  match String.fromUTF8? bytes with
  | none => .error .notText
  | some text => .ok text

structure Folder where
  files : List (String × ByteArray)

namespace Folder

/-- Where the parts of a path lead. -/
inductive Place
  | inside
  | outside
  | file (bytes : ByteArray)

def follow (folder : Folder) : Place → List String → Except ReadFailure Place
  | place, [] => .ok place
  | .file _, _ :: _ => .error .notDirectory
  | .inside, part :: parts =>
    if part = "" ∨ part = "." then folder.follow .inside parts
    else if part = ".." then folder.follow .outside parts
    else
      match folder.files.lookup part with
      | none => .error .notFound
      | some bytes => folder.follow (.file bytes) parts
  | .outside, part :: parts =>
    if part = "" ∨ part = "." ∨ part = ".." then folder.follow .outside parts
    else .error .notFound

def read (folder : Folder) : Reader := fun path =>
  if path.isEmpty then .error .notFound
  else
    let start := if path.front = '/' then Place.outside else Place.inside
    match folder.follow start (path.splitOn "/") with
    | .error e => .error e
    | .ok (.file bytes) => decodeText bytes
    | .ok _ => .error .isDirectory

end Folder

end IndicatorFormula.Command
