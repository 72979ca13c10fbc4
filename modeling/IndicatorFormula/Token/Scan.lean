import IndicatorFormula.Error
import IndicatorFormula.Text.Letter

/-!
The lexemes of a formula's text. At each place the longest token is taken; blanks are passed over,
and a newline starts the next line. The first character that starts no token is refused.
-/

namespace IndicatorFormula.Token

def isNumberPart (c : Char) : Bool :=
  c.isDigit || c == '.'

def isNamePart (c : Char) : Bool :=
  Text.isLetter c || Text.isDecimalDigit c

/-- The characters that separate tokens and have no other meaning. -/
def isSeparator (c : Char) : Bool :=
  c == ' ' || c == '\t' || c == '\r' || c == '\x0c' || c == '\x0b'

/-- The mark `c`, with an equals sign if one follows. -/
def takeEquals (c : Char) : List Char → String × List Char
  | '=' :: rest => (String.ofList [c, '='], rest)
  | rest => (String.singleton c, rest)

/-- The token that begins with the mark `c`, and what follows it. -/
def ofMark? (c : Char) (cs : List Char) : Option (Token × List Char) :=
  match c with
  | '+' => some (operator .add, cs)
  | '-' => some (operator .sub, cs)
  | '*' => some (operator .mul, cs)
  | '/' => some (operator .div, cs)
  | ',' => some (comma, cs)
  | '(' => some (leftParen, cs)
  | ')' => some (rightParen, cs)
  | ';' => some (semicolon, cs)
  | ':' => some (assign (takeEquals c cs).1, (takeEquals c cs).2)
  | '<' | '>' | '=' | '!' => some (comparison (takeEquals c cs).1, (takeEquals c cs).2)
  | _ => none

/-- The longest token that begins with `c`, and what follows it. -/
def first? (c : Char) (cs : List Char) : Option (Token × List Char) :=
  if isNumberPart c then
    some (number (String.ofList (c :: cs.takeWhile isNumberPart)), cs.dropWhile isNumberPart)
  else if Text.isLetter c then
    some (identifier (String.ofList (c :: cs.takeWhile isNamePart)), cs.dropWhile isNamePart)
  else ofMark? c cs

theorem length_takeEquals_le (c : Char) (cs : List Char) :
    (takeEquals c cs).2.length ≤ cs.length := by
  unfold takeEquals
  split
  · exact Nat.le_succ _
  · exact Nat.le_refl _

theorem length_le_of_ofMark? {c : Char} {cs rest : List Char} {t : Token}
    (h : ofMark? c cs = some (t, rest)) : rest.length ≤ cs.length := by
  unfold ofMark? at h
  split at h <;> cases h <;> first | exact Nat.le_refl _ | exact length_takeEquals_le _ _

theorem length_le_of_first? {c : Char} {cs rest : List Char} {t : Token}
    (h : first? c cs = some (t, rest)) : rest.length ≤ cs.length := by
  unfold first? at h
  split at h
  · cases h
    exact (List.dropWhile_suffix _).length_le
  · split at h
    · cases h
      exact (List.dropWhile_suffix _).length_le
    · exact length_le_of_ofMark? h

/-- The lexemes of a text that begins on the given line. -/
def scan (line : Nat) (cs : List Char) : Except SyntaxError (List Lexeme) :=
  match cs with
  | [] => .ok []
  | c :: rest =>
    if c = '\n' then scan (line + 1) rest
    else if isSeparator c then scan line rest
    else
      match _h : first? c rest with
      | none => .error (.invalidCharacter c line)
      | some (token, after) =>
        match scan line after with
        | .error e => .error e
        | .ok lexemes => .ok (⟨token, line⟩ :: lexemes)
termination_by cs.length
decreasing_by
  · exact Nat.lt_succ_self _
  · exact Nat.lt_succ_self _
  · exact Nat.lt_succ_of_le (length_le_of_first? ‹_›)

def lexemes (source : String) : Except SyntaxError (List Lexeme) :=
  scan 1 source.toList

/-- The line of the last token, 1 if there is none. -/
def lastLine (lexemes : List Lexeme) : Nat :=
  match lexemes.getLast? with
  | some lexeme => lexeme.line
  | none => 1

end IndicatorFormula.Token
