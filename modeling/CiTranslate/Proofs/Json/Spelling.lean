import CiTranslate.Proofs.Json.RoundTrip

/-!
JSON texts with blanks between their parts.

A layout says which blanks stand before an item, before a closing bracket and behind a colon. The
compact form and the form with one item a line are the two layouts in use (`spell_compactLayout`,
`spell_prettyLayout`), so that what is proved of any layout holds of both. The readers that look
for the next item, the next key or the end of a list or record find it behind any blanks.
-/

namespace CiTranslate.Json

/-! ### Blanks -/

/-- Blanks only. -/
def IsGap (gap : List Char) : Prop := ∀ c ∈ gap, isSpace c = true

theorem isGap_nil : IsGap [] := fun _ mem => nomatch mem

theorem isGap_newLine (level : Nat) : IsGap (newLine level) := by
  intro c mem
  rcases List.mem_cons.mp mem with rfl | mem
  · rfl
  · rw [List.eq_of_mem_replicate mem]
    rfl

theorem skipSpaces_append {gap : List Char} (blank : IsGap gap) (text : List Char) :
    skipSpaces (gap ++ text) = skipSpaces text :=
  List.dropWhile_append_of_pos blank

theorem skipSpaces_cons {c : Char} (visible : isSpace c = false) (text : List Char) :
    skipSpaces (c :: text) = c :: text :=
  List.dropWhile_cons_of_neg (Bool.eq_false_iff.mp visible)

theorem skipSpaces_gap {gap : List Char} {c : Char} (blank : IsGap gap)
    (visible : isSpace c = false) (text : List Char) :
    skipSpaces (gap ++ c :: text) = c :: text := by
  rw [skipSpaces_append blank, skipSpaces_cons visible]

/-! ### Layouts -/

/-- The blanks between the parts of a text. -/
structure Layout where
  /-- Before an item and before a closing bracket. -/
  newLine : Nat → List Char
  /-- Between the colon and the value of a field. -/
  afterColon : List Char
  isGap_newLine : ∀ level, IsGap (newLine level)
  isGap_afterColon : IsGap afterColon

def compactLayout : Layout := ⟨fun _ => [], [], fun _ => isGap_nil, isGap_nil⟩

def prettyLayout : Layout := ⟨newLine, [' '], isGap_newLine, by simp [IsGap, isSpace]⟩

namespace Layout

/-- The blanks before the bracket that closes a list or a record. An empty one has none. -/
def beforeEnd (layout : Layout) (level : Nat) (isEmpty : Bool) : List Char :=
  if isEmpty then [] else layout.newLine level

theorem isGap_beforeEnd (layout : Layout) (level : Nat) (isEmpty : Bool) :
    IsGap (layout.beforeEnd level isEmpty) := by
  unfold beforeEnd
  split
  · exact isGap_nil
  · exact layout.isGap_newLine level

end Layout

mutual

/-- The text of a value whose brackets stand at a level. -/
def spell (layout : Layout) (level : Nat) : Data → List Char
  | .null => compact .null
  | .bool value => compact (.bool value)
  | .int value => compact (.int value)
  | .float value => compact (.float value)
  | .text value => compact (.text value)
  | .list items =>
    '[' :: (spellItems layout (level + 1) true items ++
      (layout.beforeEnd level items.isEmpty ++ [']']))
  | .record fields =>
    '\x7b' :: (spellFields layout (level + 1) true fields ++
      (layout.beforeEnd level fields.isEmpty ++ ['\x7d']))

/-- Items up to the blanks before the end of their list. -/
def spellItems (layout : Layout) (level : Nat) (first : Bool) : List Data → List Char
  | [] => []
  | item :: items =>
    separator first ++ (layout.newLine level ++
      (spell layout level item ++ spellItems layout level false items))

/-- Fields up to the blanks before the end of their record. -/
def spellFields (layout : Layout) (level : Nat) (first : Bool) :
    List (String × Data) → List Char
  | [] => []
  | (key, value) :: fields =>
    separator first ++ (layout.newLine level ++ (writeText key ++ ':' ::
      (layout.afterColon ++ (spell layout level value ++ spellFields layout level false fields))))

end

/-! ### Starts

What a reader meets first in a text, behind any blanks. -/

theorem skipSpaces_writeText {gap : List Char} (blank : IsGap gap) (value : String)
    (rest : List Char) :
    skipSpaces (gap ++ (writeText value ++ rest)) =
      quote :: (value.toList.flatMap escape ++ quote :: rest) := by
  rw [writeText, List.cons_append, skipSpaces_gap blank rfl, List.append_assoc,
    List.singleton_append]

theorem skipSpaces_spell_list {gap : List Char} (blank : IsGap gap) (layout : Layout)
    (level : Nat) (items : List Data) (rest : List Char) :
    skipSpaces (gap ++ (spell layout level (.list items) ++ rest)) =
      '[' :: (spellItems layout (level + 1) true items ++
        (layout.beforeEnd level items.isEmpty ++ ']' :: rest)) := by
  rw [spell, List.cons_append, skipSpaces_gap blank rfl, List.append_assoc, List.append_assoc,
    List.singleton_append]

theorem skipSpaces_spell_record {gap : List Char} (blank : IsGap gap) (layout : Layout)
    (level : Nat) (fields : List (String × Data)) (rest : List Char) :
    skipSpaces (gap ++ (spell layout level (.record fields) ++ rest)) =
      '\x7b' :: (spellFields layout (level + 1) true fields ++
        (layout.beforeEnd level fields.isEmpty ++ '\x7d' :: rest)) := by
  rw [spell, List.cons_append, skipSpaces_gap blank rfl, List.append_assoc, List.append_assoc,
    List.singleton_append]

/-! ### The two forms -/

mutual

theorem spell_compactLayout (level : Nat) : (data : Data) →
    spell compactLayout level data = compact data
  | .null => rfl
  | .bool _ => rfl
  | .int _ => rfl
  | .float _ => rfl
  | .text _ => rfl
  | .list items => by
    rw [spell, compact, compactItems_eq, spellItems_compactLayout (level + 1) true items]
    cases items <;> rfl
  | .record fields => by
    rw [spell, compact, compactFields_eq, spellFields_compactLayout (level + 1) true fields]
    cases fields <;> rfl

theorem spellItems_compactLayout (level : Nat) (first : Bool) : (items : List Data) →
    spellItems compactLayout level first items = itemsFrom first items
  | [] => rfl
  | item :: items => by
    rw [spellItems, itemsFrom, spell_compactLayout level item,
      spellItems_compactLayout level false items]
    rfl

theorem spellFields_compactLayout (level : Nat) (first : Bool) :
    (fields : List (String × Data)) →
      spellFields compactLayout level first fields = fieldsFrom first fields
  | [] => rfl
  | (key, value) :: fields => by
    rw [spellFields, fieldsFrom, spell_compactLayout level value,
      spellFields_compactLayout level false fields]
    rfl

end

mutual

theorem spell_prettyLayout (level : Nat) : (data : Data) →
    spell prettyLayout level data = pretty level data
  | .null => rfl
  | .bool _ => rfl
  | .int _ => rfl
  | .float _ => rfl
  | .text _ => rfl
  | .list [] => rfl
  | .list (item :: items) => by
    rw [spell, pretty, spellItems_prettyLayout (level + 1) true (item :: items) nofun]
    · simp [separator, Layout.beforeEnd, prettyLayout]
    · exact nofun
  | .record [] => rfl
  | .record (field :: fields) => by
    rw [spell, pretty, spellFields_prettyLayout (level + 1) true (field :: fields) nofun]
    · simp [separator, Layout.beforeEnd, prettyLayout]
    · exact nofun

theorem spellItems_prettyLayout (level : Nat) (first : Bool) :
    (items : List Data) → items ≠ [] →
      spellItems prettyLayout level first items = separator first ++ prettyItems level items
  | [], notEmpty => absurd rfl notEmpty
  | [item], _ => by
    rw [spellItems, prettyItems, spell_prettyLayout level item]
    simp [spellItems, prettyLayout]
  | item :: next :: items, _ => by
    rw [spellItems, prettyItems, spell_prettyLayout level item,
      spellItems_prettyLayout level false (next :: items) nofun]
    simp [separator, prettyLayout]

theorem spellFields_prettyLayout (level : Nat) (first : Bool) :
    (fields : List (String × Data)) → fields ≠ [] →
      spellFields prettyLayout level first fields = separator first ++ prettyFields level fields
  | [], notEmpty => absurd rfl notEmpty
  | [(key, value)], _ => by
    rw [spellFields, prettyFields, spell_prettyLayout level value]
    simp [spellFields, prettyLayout]
  | (key, value) :: next :: fields, _ => by
    rw [spellFields, prettyFields, spell_prettyLayout level value,
      spellFields_prettyLayout level false (next :: fields) nofun]
    simp [separator, prettyLayout]

end

end CiTranslate.Json
