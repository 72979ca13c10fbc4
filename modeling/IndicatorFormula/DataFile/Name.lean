/-!
Quoted names in a data file. A backslash starts an escape; control characters stand only in
escapes. A character beyond the first 65536 is escaped as a pair of surrogates, and a surrogate
without its partner is refused.
-/

namespace IndicatorFormula.DataFile

/-- The text up to the closing quote, with its escapes as written. -/
def readQuoted? : List Char → Option (List Char × List Char)
  | [] => none
  | '"' :: rest => some ([], rest)
  | '\\' :: c :: rest => (readQuoted? rest).map fun (text, after) => ('\\' :: c :: text, after)
  | c :: rest => (readQuoted? rest).map fun (text, after) => (c :: text, after)

def hexDigit? (c : Char) : Option Nat :=
  if '0' ≤ c ∧ c ≤ '9' then some (c.toNat - '0'.toNat)
  else if 'a' ≤ c ∧ c ≤ 'f' then some (c.toNat - 'a'.toNat + 10)
  else if 'A' ≤ c ∧ c ≤ 'F' then some (c.toNat - 'A'.toNat + 10)
  else none

def ofHex? (digits : List Char) : Option Nat :=
  (digits.mapM hexDigit?).map fun values => values.foldl (16 * · + ·) 0

def ofShortEscape? : Char → Option Nat
  | '"' => some 0x22
  | '\\' => some 0x5c
  | '/' => some 0x2f
  | 'b' => some 0x08
  | 'f' => some 0x0c
  | 'n' => some 0x0a
  | 'r' => some 0x0d
  | 't' => some 0x09
  | _ => none

/-- The code points and surrogates of a quoted text. -/
def units? : List Char → Option (List Nat)
  | [] => some []
  | '\\' :: 'u' :: a :: b :: c :: d :: rest => do
    let unit ← ofHex? [a, b, c, d]
    let units ← units? rest
    some (unit :: units)
  | '\\' :: c :: rest => do
    let unit ← ofShortEscape? c
    let units ← units? rest
    some (unit :: units)
  | c :: rest =>
    if c = '\\' ∨ c.toNat < 0x20 then none
    else (units? rest).map (c.toNat :: ·)

def isHighSurrogate (n : Nat) : Bool :=
  decide (0xd800 ≤ n ∧ n ≤ 0xdbff)

def isLowSurrogate (n : Nat) : Bool :=
  decide (0xdc00 ≤ n ∧ n ≤ 0xdfff)

/-- Joins the surrogates in pairs. -/
def ofUnits? : List Nat → Option (List Char)
  | [] => some []
  | [unit] =>
    if isHighSurrogate unit || isLowSurrogate unit then none else some [Char.ofNat unit]
  | unit :: low :: rest =>
    if isHighSurrogate unit then
      if isLowSurrogate low then
        (ofUnits? rest).map (Char.ofNat (0x10000 + (unit - 0xd800) * 0x400 + (low - 0xdc00)) :: ·)
      else none
    else if isLowSurrogate unit then none
    else (ofUnits? (low :: rest)).map (Char.ofNat unit :: ·)

/-- The name behind an opening quote, and what follows its closing quote. -/
def readName? (cs : List Char) : Option (String × List Char) := do
  let (text, rest) ← readQuoted? cs
  let units ← units? text
  let name ← ofUnits? units
  some (String.ofList name, rest)

theorem length_lt_of_readQuoted? {cs text rest : List Char}
    (h : readQuoted? cs = some (text, rest)) : rest.length < cs.length := by
  fun_induction readQuoted? cs generalizing text with
  | case1 => cases h
  | case2 cs =>
    cases h
    exact Nat.lt_succ_self _
  | case3 c cs ih =>
    obtain ⟨⟨text', after⟩, hs, heq⟩ := Option.map_eq_some_iff.1 h
    cases heq
    exact Nat.lt_trans (ih hs) (Nat.lt_trans (Nat.lt_succ_self _) (Nat.lt_succ_self _))
  | case4 c cs _ _ ih =>
    obtain ⟨⟨text', after⟩, hs, heq⟩ := Option.map_eq_some_iff.1 h
    cases heq
    exact Nat.lt_trans (ih hs) (Nat.lt_succ_self _)

theorem length_lt_of_readName? {cs rest : List Char} {name : String}
    (h : readName? cs = some (name, rest)) : rest.length < cs.length := by
  simp only [readName?, Option.bind_eq_bind, Option.bind_eq_some_iff, Option.some.injEq,
    Prod.mk.injEq] at h
  obtain ⟨⟨text, rest'⟩, hquoted, _, _, _, _, _, rfl⟩ := h
  exact length_lt_of_readQuoted? hquoted

end IndicatorFormula.DataFile
