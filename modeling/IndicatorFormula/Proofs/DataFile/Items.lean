import IndicatorFormula.DataFile
import IndicatorFormula.Proofs.DataFile.Name
import IndicatorFormula.Proofs.DataFile.Number

/-!
Texts and the items they are read as. A text that spells items does so whatever stands behind it
(`Spells`), so that the items of texts put together are put together (`Spells.append`). Only behind
a number something may stand that belongs to it (`SpellsEnded`). The items of an object come back as
its members (`readObject?_separated`).
-/

namespace IndicatorFormula.DataFile

variable {c : Char} {cs ds text after : List Char} {item : Item} {is js : List Item}

theorem items?_nil : items? [] = some [] := by
  rw [items?]

theorem items?_of_isBlank (h : isBlank c = true) (rest : List Char) :
    items? (c :: rest) = items? rest := by
  rw [items?, if_pos h]

theorem items?_of_firstItem? (hblank : isBlank c = false)
    (h : firstItem? c cs = some (item, after)) :
    items? (c :: cs) = (items? after).map (item :: ·) := by
  rw [items?, if_neg (ne_true_of_eq_false hblank)]
  split
  · next hnone =>
    rw [h] at hnone
    cases hnone
  · next hsome =>
    rw [h] at hsome
    cases hsome
    rfl

/-! ## Spelling -/

/-- The text is read as the items, whatever stands behind it. -/
def Spells (text : List Char) (is : List Item) : Prop :=
  ∀ rest, items? (text ++ rest) = (items? rest).map (is ++ ·)

/-- The text is read as the items where a number at its end does not go on behind it. -/
def SpellsEnded (text : List Char) (is : List Item) : Prop :=
  ∀ rest, EndsNumeral rest → items? (text ++ rest) = (items? rest).map (is ++ ·)

theorem Spells.ended (h : Spells text is) : SpellsEnded text is :=
  fun rest _ => h rest

theorem Spells.append_ended (h : Spells cs is) (h' : SpellsEnded ds js) :
    SpellsEnded (cs ++ ds) (is ++ js) := by
  intro rest hrest
  rw [List.append_assoc, h, h' rest hrest, Option.map_map]
  simp only [Function.comp_def, List.append_assoc]

theorem SpellsEnded.append (h : SpellsEnded cs is) (h' : Spells ds js)
    (hends : ∀ rest, EndsNumeral (ds ++ rest)) : Spells (cs ++ ds) (is ++ js) := by
  intro rest
  rw [List.append_assoc, h _ (hends rest), h', Option.map_map]
  simp only [Function.comp_def, List.append_assoc]

theorem Spells.append (h : Spells cs is) (h' : Spells ds js) : Spells (cs ++ ds) (is ++ js) := by
  intro rest
  rw [List.append_assoc, h, h', Option.map_map]
  simp only [Function.comp_def, List.append_assoc]

theorem spells_blank (h : ∀ c ∈ text, isBlank c = true) : Spells text [] := by
  intro rest
  induction text with
  | nil =>
    simp only [List.nil_append]
    exact Option.map_id'.symm
  | cons c text ih =>
    obtain ⟨hc, htext⟩ := List.forall_mem_cons.1 h
    rw [List.cons_append, items?_of_isBlank hc]
    exact ih htext

theorem spells_mark (hblank : isBlank c = false)
    (h : ∀ rest, firstItem? c rest = some (item, rest)) : Spells [c] [item] :=
  fun rest => items?_of_firstItem? hblank (h rest)

theorem spells_null : Spells ['n', 'u', 'l', 'l'] [.point Series.missing] :=
  fun _ => items?_of_firstItem? rfl rfl

theorem spells_quoted (name : String) :
    Spells ('"' :: (name.toList.flatMap Report.escape ++ ['"'])) [.name name] := by
  intro rest
  rw [List.cons_append, List.append_assoc, List.singleton_append]
  refine items?_of_firstItem? rfl ?_
  show (readName? _).map _ = _
  rw [readName?_quoted]
  rfl

/-- No item but a number begins with a minus or a digit. -/
theorem firstItem?_of_readPoint? {p : Item × List Char} (h : readPoint? (c :: cs) = some p) :
    isBlank c = false ∧ firstItem? c cs = some p := by
  constructor
  · rw [← Bool.not_eq_true]
    intro hblank
    simp only [isBlank, Bool.or_eq_true, beq_iff_eq] at hblank
    rcases hblank with ((rfl | rfl) | rfl) | rfl <;> cases h
  · unfold firstItem?
    split
    case h_9 => exact h
    all_goals cases h

theorem readPoint?_append {rest : List Char} (h : EndsNumeral rest) (cs : List Char) :
    readPoint? (cs ++ rest) = withRest rest (readPoint? cs) := by
  rw [readPoint?, readPoint?, readNumeral?_append h]
  cases readNumeral? cs with
  | none => rfl
  | some numeral =>
    simp only [withRest, Option.map_some, Option.bind_eq_bind, Option.bind_some]
    cases numeral.1.toFloat? <;> rfl

theorem spellsEnded_point {x : Float} (h : readPoint? text = some (.point x, [])) :
    SpellsEnded text [.point x] := by
  intro rest hrest
  cases text with
  | nil => cases h
  | cons c text =>
    have hpoint := readPoint?_append hrest (c :: text)
    rw [h] at hpoint
    obtain ⟨hblank, hfirst⟩ := firstItem?_of_readPoint? hpoint
    exact items?_of_firstItem? hblank hfirst

/-! ## Lists in brackets -/

variable {α : Type}

/-- The items of a list, a comma between any two. -/
def separated (is : α → List Item) (l : List α) : List Item :=
  List.intercalate [.comma] (l.map is)

theorem endsNumeral_blank (h : ∀ c ∈ text, isBlank c = true) (hc : isNumeralPart c = false)
    (rest : List Char) : EndsNumeral (text ++ c :: rest) := by
  cases text with
  | nil => exact endsNumeral_cons hc rest
  | cons d text =>
    have hd := h d (List.mem_cons_self ..)
    simp only [isBlank, Bool.or_eq_true, beq_iff_eq] at hd
    rcases hd with ((rfl | rfl) | rfl) | rfl <;> exact endsNumeral_cons (by decide) _

theorem spellsEnded_separated {lead : List Char} (hlead : ∀ c ∈ lead, isBlank c = true)
    {text : α → List Char} {is : α → List Item} {l : List α}
    (h : ∀ a ∈ l, SpellsEnded (text a) (is a)) :
    SpellsEnded (List.intercalate (',' :: lead) (l.map text)) (separated is l) := by
  have hcomma : Spells (',' :: lead) [.comma] :=
    (spells_mark rfl fun _ => rfl).append (spells_blank hlead)
  induction l with
  | nil => exact (spells_blank (List.forall_mem_nil _)).ended
  | cons a l ih =>
    obtain ⟨ha, hl⟩ := List.forall_mem_cons.1 h
    cases l with
    | nil =>
      rw [List.map_singleton, List.intercalate_singleton, separated, List.map_singleton,
        List.intercalate_singleton]
      exact ha
    | cons b l =>
      rw [List.map_cons, List.map_cons, List.intercalate_cons_cons, separated, List.map_cons,
        List.map_cons, List.intercalate_cons_cons]
      exact (ha.append hcomma fun rest => endsNumeral_cons (by decide) _).append_ended (ih hl)

/-- A list in brackets. Blanks may stand in front of each element and of the closing bracket. -/
theorem spells_bracketed {opening closing : Char} {first last : Item}
    (hopening : Spells [opening] [first]) (hclosing : Spells [closing] [last])
    (hends : isNumeralPart closing = false) {lead tail : List Char}
    (hlead : ∀ c ∈ lead, isBlank c = true) (htail : ∀ c ∈ tail, isBlank c = true)
    {text : α → List Char} {is : α → List Item} {l : List α}
    (h : ∀ a ∈ l, SpellsEnded (text a) (is a)) :
    Spells (opening :: (lead ++ List.intercalate (',' :: lead) (l.map text) ++ (tail ++ [closing])))
      (first :: (separated is l ++ [last])) := by
  have hlist := (spells_blank hlead).append_ended (spellsEnded_separated hlead h)
  have hclosed := (spells_blank htail).append hclosing
  refine hopening.append (hlist.append hclosed fun rest => ?_)
  rw [List.append_assoc]
  exact endsNumeral_blank htail hends rest

/-! ## Reading back -/

theorem separated_cons_cons (is : α → List Item) (a b : α) (l : List α) :
    separated is (a :: b :: l) = is a ++ .comma :: separated is (b :: l) := by
  rw [separated, List.map_cons, List.map_cons, List.intercalate_cons_cons, List.append_assoc]
  rfl

theorem separated_singleton (is : α → List Item) (a : α) : separated is [a] = is a :=
  List.intercalate_singleton

def pointItems (x : Float) : List Item :=
  [.point x]

def memberItems (entry : String × Series) : List Item :=
  .name entry.1 :: .colon :: .openArray :: (separated pointItems entry.2 ++ [.closeArray])

theorem readPoints?_separated (x : Float) (s : Series) (rest : List Item) :
    readPoints? (separated pointItems (x :: s) ++ .closeArray :: rest) = some (x :: s, rest) := by
  induction s generalizing x with
  | nil => rfl
  | cons y s ih =>
    rw [separated_cons_cons, pointItems, List.append_assoc, List.singleton_append,
      List.cons_append, readPoints?, ih]
    rfl

theorem readArray?_separated (s : Series) (rest : List Item) :
    readArray? (.openArray :: (separated pointItems s ++ .closeArray :: rest)) =
      some (s, rest) := by
  cases s with
  | nil => rfl
  | cons x s =>
    have hpoints := readPoints?_separated x s rest
    cases s with
    | nil => exact hpoints
    | cons y s => exact hpoints

theorem readMembers?_of_comma {name : String} {s : Series} {items rest : List Item}
    (h : readArray? items = some (s, .comma :: rest)) :
    readMembers? (.name name :: .colon :: items) = (readMembers? rest).map ((name, s) :: ·) := by
  rw [readMembers?]
  split
  · next heq =>
    rw [h] at heq
    cases heq
    rfl
  · next heq =>
    rw [h] at heq
    cases heq
  · next hcomma _ => exact (hcomma s rest h).elim

theorem readMembers?_of_closeObject {name : String} {s : Series} {items : List Item}
    (h : readArray? items = some (s, [.closeObject])) :
    readMembers? (.name name :: .colon :: items) = some [(name, s)] := by
  rw [readMembers?]
  split
  · next heq =>
    rw [h] at heq
    cases heq
  · next heq =>
    rw [h] at heq
    cases heq
    rfl
  · next _ hclose => exact (hclose s h).elim

theorem memberItems_append (entry : String × Series) (rest : List Item) :
    memberItems entry ++ rest = .name entry.1 :: .colon :: .openArray ::
      (separated pointItems entry.2 ++ .closeArray :: rest) := by
  simp only [memberItems, List.cons_append, List.append_assoc, List.nil_append]

theorem readMembers?_separated (entry : String × Series) (entries : List (String × Series)) :
    readMembers? (separated memberItems (entry :: entries) ++ [.closeObject]) =
      some (entry :: entries) := by
  induction entries generalizing entry with
  | nil =>
    rw [separated_singleton, memberItems_append]
    exact readMembers?_of_closeObject (readArray?_separated _ _)
  | cons other entries ih =>
    rw [separated_cons_cons, List.append_assoc, List.cons_append, memberItems_append,
      readMembers?_of_comma (readArray?_separated _ _), ih]
    rfl

theorem readObject?_separated (entries : List (String × Series)) :
    readObject? (.openObject :: (separated memberItems entries ++ [.closeObject])) =
      some entries := by
  cases entries with
  | nil => rfl
  | cons entry entries =>
    have hmembers := readMembers?_separated entry entries
    cases entries with
    | nil => exact hmembers
    | cons other entries => exact hmembers

/-- The members of a data file as they stand in it. -/
def members? (text : String) : Option (List (String × Series)) :=
  (items? text.toList).bind readObject?

theorem read?_eq_map (text : String) : read? text = (members? text).map Table.ofList := by
  rw [read?, members?, Option.map_bind]
  rfl

end IndicatorFormula.DataFile
