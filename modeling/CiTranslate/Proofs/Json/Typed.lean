import CiTranslate.Json.Typed
import CiTranslate.Proofs.Json.Spelling
import CiTranslate.Shape.OfData

/-!
Texts of data that fits a shape are read back against it.

`Shape.Fits` says which data fits a shape and what its full form is, where a record may leave out
the fields that have a default. A text of such data, in any layout, behind any blanks and whatever
follows it, is read as the full form (`readsShape`), since the reader takes each part of the text
where the layout ends it. A whole text of it is therefore read by `readAs` (`readAs_spell`).
-/

namespace CiTranslate

/-! ### Data that fits a shape -/

namespace Shape

/-- The shape of a field of a record. -/
def shapeOf? (key : String) (fields : List (String × Shape × Option Data)) : Option Shape :=
  (fields.find? (·.1 == key)).map (·.2.1)

/-- A field that a record gives, and the full form of its data. -/
structure Entry where
  key : String
  shape : Shape
  data : Data
  full : Data

namespace Entry

/-- The field as it is given. -/
def given (entry : Entry) : String × Data := (entry.key, entry.data)

/-- The field in full form. -/
def filled (entry : Entry) : String × Data := (entry.key, entry.full)

end Entry

/-- Data that fits a shape, and its full form. Of a record any fields may be given, in any order;
those left out have defaults. -/
inductive Fits : Shape → Data → Data → Prop
  | text (value : String) : Fits .text (.text value) (.text value)
  | absent (inner : Shape) : Fits (.optional inner) .null .null
  | present {inner : Shape} {data full : Data} (notNull : data.isNull = false)
      (fits : Fits inner data full) : Fits (.optional inner) data full
  | choice {names : List String} {name : String} (known : name ∈ names) :
      Fits (.choice names) (.text name) (.text name)
  | texts {fields : Fields String} (distinct : fields.names.Nodup) :
      Fits .texts (.record (Fields.mapValues .text fields))
        (.record (Fields.mapValues .text fields))
  | list {item : Shape} {pairs : List (Data × Data)}
      (all : ∀ pair ∈ pairs, Fits item pair.1 pair.2) :
      Fits (.list item) (.list (pairs.map Prod.fst)) (.list (pairs.map Prod.snd))
  | record {name : String} {closed : Bool} {fields : List (String × Shape × Option Data)}
      {entries : List Entry} {full : List (String × Data)}
      (distinct : (entries.map Entry.key).Nodup)
      (known : ∀ entry ∈ entries, shapeOf? entry.key fields = some entry.shape)
      (all : ∀ entry ∈ entries, Fits entry.shape entry.data entry.full)
      (filled : fill (entries.map Entry.filled) fields = .ok full) :
      Fits (.record name closed fields) (.record (entries.map Entry.given)) (.record full)

theorem height_le_heightOfFields {key : String} {shape : Shape}
    {fields : List (String × Shape × Option Data)} (known : shapeOf? key fields = some shape) :
    shape.height ≤ heightOfFields fields := by
  obtain ⟨field, found, rfl⟩ := Option.map_eq_some_iff.mp known
  have mem := List.mem_of_find?_eq_some found
  clear found known
  induction fields with
  | nil => cases mem
  | cons first rest ih =>
    obtain ⟨name, shape, default⟩ := first
    rw [heightOfFields]
    rcases List.mem_cons.mp mem with rfl | later
    · exact Nat.le_max_left ..
    · exact Nat.le_trans (ih later) (Nat.le_max_right ..)

end Shape

namespace Json

open Shape (Fits Entry)

variable {layout : Layout} {first : Bool} {gap text rest : List Char}

/-! ### What comes next -/

/-- Characters that start a text of data that fits a shape. -/
def IsStart (c : Char) : Prop := c ∈ ['n', '"', '[', '\x7b']

/-- Only the text of null starts with a letter. -/
theorem exists_spell_eq_cons {shape : Shape} {data full : Data} (fits : Fits shape data full)
    (layout : Layout) (level : Nat) :
    ∃ c text, spell layout level data = c :: text ∧ IsStart c ∧
      (data.isNull = false → c ≠ 'n') := by
  induction fits with
  | text value => exact ⟨quote, _, rfl, by simp [IsStart, quote], fun _ => by decide⟩
  | absent inner =>
    exact ⟨'n', ['u', 'l', 'l'], rfl, by simp [IsStart], fun given => absurd given (by decide)⟩
  | present notNull fits ih => exact ih
  | choice known => exact ⟨quote, _, rfl, by simp [IsStart, quote], fun _ => by decide⟩
  | texts distinct => exact ⟨'\x7b', _, rfl, by simp [IsStart], fun _ => by decide⟩
  | list all ih => exact ⟨'[', _, rfl, by simp [IsStart], fun _ => by decide⟩
  | record distinct known all filled ih =>
    exact ⟨'\x7b', _, rfl, by simp [IsStart], fun _ => by decide⟩

theorem isSpace_of_isStart {c : Char} (start : IsStart c) : isSpace c = false := by
  simp only [IsStart, List.mem_cons, List.not_mem_nil, or_false] at start
  rcases start with rfl | rfl | rfl | rfl <;> rfl

theorem nextItemOf_item {c : Char} (start : IsStart c) (blank : IsGap gap) :
    nextItemOf first (separator first ++ (gap ++ c :: text)) =
      .ok (some (c :: text), c :: text) := by
  have visible := skipSpaces_gap blank (isSpace_of_isStart start) text
  simp only [IsStart, List.mem_cons, List.not_mem_nil, or_false] at start
  cases first
  · have comma : skipSpaces (',' :: (gap ++ c :: text)) = ',' :: (gap ++ c :: text) :=
      skipSpaces_cons rfl _
    rcases start with rfl | rfl | rfl | rfl <;>
      simp [nextItemOf, nextItem, separator, comma, visible]
  · rcases start with rfl | rfl | rfl | rfl <;> simp [nextItemOf, nextItem, separator, visible]

theorem nextItemOf_close (blank : IsGap gap) (first : Bool) :
    nextItemOf first (gap ++ ']' :: rest) = .ok (none, ']' :: rest) := by
  simp [nextItemOf, nextItem, skipSpaces_gap blank (show isSpace ']' = false from rfl)]

theorem nextKey_key (key : String) (blank : IsGap gap) :
    nextKey first (separator first ++ (gap ++ (writeText key ++ rest))) =
      .ok (.item (key.toList.flatMap escape ++ quote :: rest)) := by
  have visible := skipSpaces_writeText blank key rest
  cases first
  · have comma : skipSpaces (',' :: (gap ++ (writeText key ++ rest))) =
        ',' :: (gap ++ (writeText key ++ rest)) := skipSpaces_cons rfl _
    simp [nextKey, separator, comma, visible, quote]
  · simp [nextKey, separator, visible, quote]

theorem nextKey_close (blank : IsGap gap) (first : Bool) :
    nextKey first (gap ++ '\x7d' :: rest) = .ok (.close rest) := by
  simp [nextKey, skipSpaces_gap blank (show isSpace '\x7d' = false from rfl)]

theorem readTextAs_writeText (expected value : String) (blank : IsGap gap) :
    readTextAs expected (gap ++ (writeText value ++ rest)) = .ok (value, rest) := by
  rw [readTextAs, skipSpaces_writeText blank]
  change stopAt (readText _) = _
  rw [readText_writeText]
  rfl

/-! ### Values -/

/-- The text of data is read as its full form against a shape, as long as levels and steps
suffice. Two steps for each character pay for a value and for the item or field that holds it. An
optional value takes a step and no character, which the height of the shape pays for. -/
def ReadsShape (layout : Layout) (shape : Shape) (data full : Data) : Prop :=
  ∀ (level : Nat) {gap : List Char} {depth steps : Nat} (rest : List Char), IsGap gap →
    shape.height ≤ depth → 2 * (spell layout level data).length + shape.height ≤ steps →
      readShapeFrom steps depth shape (gap ++ (spell layout level data ++ rest)) = .ok (full, rest)

theorem ReadsShape.atStart {shape : Shape} {data full : Data}
    (reads : ReadsShape layout shape data full) (level : Nat) {depth steps : Nat}
    (rest : List Char) (shallow : shape.height ≤ depth)
    (enough : 2 * (spell layout level data).length + shape.height ≤ steps) :
    readShapeFrom steps depth shape (spell layout level data ++ rest) = .ok (full, rest) :=
  @reads level [] depth steps rest isGap_nil shallow enough

/-! One step of the reader for each shape, at the start that its texts have. -/

theorem readShapeFrom_text (steps depth : Nat) (text : List Char) :
    readShapeFrom (steps + 1) depth .text text =
      (readTextAs "a string" text).map fun (value, rest) => (.text value, rest) := by
  rw [readShapeFrom.eq_def]

theorem readShapeFrom_optional (steps depth : Nat) {inner : Shape} {c : Char}
    (visible : skipSpaces text = c :: rest) (other : c ≠ 'n') :
    readShapeFrom (steps + 1) depth (.optional inner) text =
      readShapeFrom steps depth inner (c :: rest) := by
  rw [readShapeFrom.eq_def]
  simp only [visible]
  split
  · next start => exact absurd (List.cons.inj start).1 other
  · rfl

theorem readShapeFrom_choice (steps depth : Nat) {names : List String}
    (visible : skipSpaces text = quote :: rest) :
    readShapeFrom (steps + 1) depth (.choice names) text =
      (readName names rest).map fun (name, rest) => (.text name, rest) := by
  rw [readShapeFrom.eq_def]
  simp only [visible, quote]

theorem readShapeFrom_texts (steps depth : Nat) (visible : skipSpaces text = '\x7b' :: rest) :
    readShapeFrom (steps + 1) (depth + 1) .texts text = readTextsFrom steps [] rest := by
  rw [readShapeFrom.eq_def]
  simp only [visible]

theorem readShapeFrom_list (steps depth : Nat) {item : Shape}
    (visible : skipSpaces text = '[' :: rest) :
    readShapeFrom (steps + 1) (depth + 1) (.list item) text =
      closed closeList (readItemsOfFrom steps depth item [] rest) := by
  rw [readShapeFrom.eq_def]
  simp only [visible]

theorem readShapeFrom_record (steps depth : Nat) {name : String} {isClosed : Bool}
    {fields : List (String × Shape × Option Data)} (visible : skipSpaces text = '\x7b' :: rest) :
    readShapeFrom (steps + 1) (depth + 1) (.record name isClosed fields) text =
      closed closeRecord (readNamedFrom steps depth isClosed fields [] true rest) := by
  rw [readShapeFrom.eq_def]
  simp only [visible]

/-! Texts, choices and optional values. -/

theorem readsShape_text (layout : Layout) (value : String) :
    ReadsShape layout .text (.text value) (.text value) := by
  intro level gap depth steps rest blank shallow enough
  obtain ⟨steps, rfl⟩ := Nat.exists_eq_add_of_le' (Nat.le_of_add_left_le enough)
  rw [show Shape.height .text = 1 from rfl, readShapeFrom_text, spell, compact,
    readTextAs_writeText _ _ blank]
  rfl

theorem readsShape_absent (layout : Layout) (inner : Shape) :
    ReadsShape layout (.optional inner) .null .null := by
  intro level gap depth steps rest blank shallow enough
  rw [Shape.height] at enough
  obtain ⟨steps, rfl⟩ := Nat.exists_eq_add_of_le' (show 1 ≤ steps by omega)
  have visible : skipSpaces (gap ++ (spell layout level .null ++ rest)) =
      'n' :: 'u' :: 'l' :: 'l' :: rest := skipSpaces_gap blank rfl _
  rw [readShapeFrom.eq_def]
  simp only [visible]
  rfl

theorem readsShape_present {inner : Shape} {data full : Data} (notNull : data.isNull = false)
    (fits : Fits inner data full) (inside : ReadsShape layout inner data full) :
    ReadsShape layout (.optional inner) data full := by
  intro level gap depth steps rest blank shallow enough
  rw [Shape.height] at shallow enough
  obtain ⟨steps, rfl⟩ := Nat.exists_eq_add_of_le' (show 1 ≤ steps by omega)
  obtain ⟨c, text, spelled, start, other⟩ := exists_spell_eq_cons fits layout level
  have visible : skipSpaces (gap ++ (spell layout level data ++ rest)) = c :: (text ++ rest) := by
    rw [spelled, List.cons_append, skipSpaces_gap blank (isSpace_of_isStart start)]
  rw [readShapeFrom_optional _ _ visible (other notNull), ← List.cons_append, ← spelled]
  exact inside.atStart level rest (by omega) (by omega)

theorem readsShape_choice (layout : Layout) {names : List String} {name : String}
    (known : name ∈ names) : ReadsShape layout (.choice names) (.text name) (.text name) := by
  intro level gap depth steps rest blank shallow enough
  obtain ⟨steps, rfl⟩ := Nat.exists_eq_add_of_le' (Nat.le_of_add_left_le enough)
  rw [show (Shape.choice names).height = 1 from rfl, spell, compact,
    readShapeFrom_choice _ _ (skipSpaces_writeText blank name rest), readName, readText_writeText]
  dsimp only
  rw [if_pos (List.contains_iff_mem.mpr known)]
  rfl

/-! Records of texts. -/

theorem readTextsFrom_spellFields {fields : Fields String} {read : Fields Data}
    (distinct : (read.names ++ fields.names).Nodup) (level : Nat) {steps : Nat}
    (enough : 2 * (spellFields layout level read.isEmpty
      (Fields.mapValues .text fields)).length < steps) (blank : IsGap gap) (rest : List Char) :
    readTextsFrom steps read (spellFields layout level read.isEmpty
        (Fields.mapValues .text fields) ++ (gap ++ '\x7d' :: rest)) =
      .ok (.record (read ++ Fields.mapValues .text fields), rest) := by
  induction fields generalizing read steps with
  | nil =>
    obtain ⟨steps, rfl⟩ := Nat.exists_eq_add_of_lt enough
    rw [Fields.mapValues, List.map_nil, spellFields, List.nil_append, readTextsFrom,
      nextKey_close blank, List.append_nil]
  | cons field fields ih =>
    obtain ⟨key, value⟩ := field
    obtain ⟨steps, rfl⟩ := Nat.exists_eq_add_of_le' (Nat.one_le_of_lt enough)
    have new : key ∉ Fields.names read := fun mem =>
      (List.nodup_append.mp distinct).2.2 key mem key (List.mem_cons_self ..) rfl
    have started : (read ++ [(key, .text value)] : Fields Data).isEmpty = false := by simp
    have colon : ∀ text, (stopAt (readColon (':' :: text))).bind (readTextAs "a string") =
        readTextAs "a string" text := fun _ => rfl
    simp only [Fields.mapValues, List.map_cons, spellFields, List.length_append, List.length_cons,
      List.append_assoc, List.cons_append] at enough ih ⊢
    rw [readTextsFrom, nextKey_key key (layout.isGap_newLine level)]
    simp only [readText_writeText, colon]
    rw [spell, compact, readTextAs_writeText _ _ layout.isGap_afterColon]
    dsimp only
    rw [Fields.put_eq_append new, ← started,
      ih (by simpa using distinct) (by rw [started]; omega)]
    simp

theorem readsShape_texts (layout : Layout) {fields : Fields String}
    (distinct : fields.names.Nodup) :
    ReadsShape layout .texts (.record (Fields.mapValues .text fields))
      (.record (Fields.mapValues .text fields)) := by
  intro level gap depth steps rest blank shallow enough
  rw [spell, List.length_cons, List.length_append] at enough
  obtain ⟨steps, rfl⟩ := Nat.exists_eq_add_of_le' (show 1 ≤ steps by omega)
  obtain ⟨depth, rfl⟩ := Nat.exists_eq_add_of_le' (show 1 ≤ depth from shallow)
  rw [readShapeFrom_texts _ _ (skipSpaces_spell_record blank ..)]
  have start : (Fields.names ([] : Fields Data) ++ fields.names).Nodup := by simpa using distinct
  exact readTextsFrom_spellFields start (level + 1) (by simp only [List.isEmpty_nil]; omega)
    (layout.isGap_beforeEnd level _) rest

/-! Lists. -/

/-- A list is read item by item. -/
theorem readItemsOfFrom_item {read : List Data} {next after : List Char} {value : Data}
    {steps depth : Nat} {item : Shape}
    (found : nextItemOf read.isEmpty text = .ok (some next, next))
    (inside : readShapeFrom steps depth item next = .ok (value, after)) :
    readItemsOfFrom (steps + 1) depth item read text =
      readItemsOfFrom steps depth item (value :: read) after := by
  rw [readItemsOfFrom, found]
  simp only [inside]

theorem readItemsOfFrom_spellItems {item : Shape} {pairs : List (Data × Data)}
    (fits : ∀ pair ∈ pairs, Fits item pair.1 pair.2)
    (inside : ∀ pair ∈ pairs, ReadsShape layout item pair.1 pair.2) {read : List Data}
    (level : Nat) {depth steps : Nat} (shallow : item.height ≤ depth)
    (enough : 2 * (spellItems layout level read.isEmpty (pairs.map Prod.fst)).length +
      item.height < steps) (blank : IsGap gap) (rest : List Char) :
    readItemsOfFrom steps depth item read
        (spellItems layout level read.isEmpty (pairs.map Prod.fst) ++ (gap ++ ']' :: rest)) =
      .ok (.list (read.reverse ++ pairs.map Prod.snd), ']' :: rest) := by
  induction pairs generalizing read steps with
  | nil =>
    obtain ⟨steps, rfl⟩ := Nat.exists_eq_add_of_lt enough
    rw [List.map_nil, spellItems, List.nil_append, readItemsOfFrom, nextItemOf_close blank,
      List.map_nil, List.append_nil]
  | cons pair pairs ih =>
    obtain ⟨steps, rfl⟩ := Nat.exists_eq_add_of_le' (Nat.one_le_of_lt enough)
    obtain ⟨c, text, spelled, start, -⟩ :=
      exists_spell_eq_cons (fits pair (List.mem_cons_self ..)) layout level
    have positive : 0 < (spell layout level pair.1).length := by simp [spelled]
    simp only [List.map_cons, spellItems, List.length_append, List.append_assoc] at enough ⊢
    have found (more : List Char) :
        nextItemOf read.isEmpty (separator read.isEmpty ++
            (layout.newLine level ++ (spell layout level pair.1 ++ more))) =
          .ok (some (spell layout level pair.1 ++ more), spell layout level pair.1 ++ more) := by
      rw [spelled]
      exact nextItemOf_item start (layout.isGap_newLine level)
    rw [readItemsOfFrom_item (found _)
        ((inside pair (List.mem_cons_self ..)).atStart level _ shallow (by omega)),
      show false = (pair.2 :: read).isEmpty from rfl,
      ih (fun other mem => fits other (List.mem_cons_of_mem _ mem))
        (fun other mem => inside other (List.mem_cons_of_mem _ mem))
        (by simp only [List.isEmpty_cons]; omega)]
    simp

theorem readsShape_list {item : Shape} {pairs : List (Data × Data)}
    (fits : ∀ pair ∈ pairs, Fits item pair.1 pair.2)
    (inside : ∀ pair ∈ pairs, ReadsShape layout item pair.1 pair.2) :
    ReadsShape layout (.list item) (.list (pairs.map Prod.fst)) (.list (pairs.map Prod.snd)) := by
  intro level gap depth steps rest blank shallow enough
  rw [spell, List.length_cons, List.length_append, Shape.height] at enough
  rw [Shape.height] at shallow
  obtain ⟨steps, rfl⟩ := Nat.exists_eq_add_of_le' (show 1 ≤ steps by omega)
  obtain ⟨depth, rfl⟩ := Nat.exists_eq_add_of_le' (show 1 ≤ depth by omega)
  rw [readShapeFrom_list _ _ (skipSpaces_spell_list blank ..),
    show true = ([] : List Data).isEmpty from rfl,
    readItemsOfFrom_spellItems fits inside (level + 1) (Nat.le_of_succ_le_succ shallow)
      (by simp only [List.isEmpty_nil]; omega) (layout.isGap_beforeEnd level _)]
  rfl

/-! Records. -/

/-- A record is read field by field. -/
theorem readNamedFrom_field {steps depth : Nat} {isClosed : Bool}
    {fields : List (String × Shape × Option Data)} {found : Fields Data} {key : String}
    {shape : Shape} {full : Data} {after : List Char}
    (next : nextKey first text = .ok (.item (key.toList.flatMap escape ++ quote :: ':' :: rest)))
    (known : Shape.shapeOf? key fields = some shape) (new : key ∉ found.names)
    (inside : readShapeFrom steps depth shape rest = .ok (full, after)) :
    readNamedFrom (steps + 1) depth isClosed fields found first text =
      readNamedFrom steps depth isClosed fields (found ++ [(key, full)]) false after := by
  obtain ⟨⟨name, shape, default⟩, declared, rfl⟩ := Option.map_eq_some_iff.mp known
  have colon : stopAt (readColon (':' :: rest)) = .ok rest := rfl
  rw [readNamedFrom, next]
  simp only [readText_writeText, declared, Fields.get?_eq_none new, colon]
  simp only [inside]
  rfl

theorem readNamedFrom_spellFields {isClosed : Bool} {fields : List (String × Shape × Option Data)}
    {entries : List Entry}
    (known : ∀ entry ∈ entries, Shape.shapeOf? entry.key fields = some entry.shape)
    (inside : ∀ entry ∈ entries, ReadsShape layout entry.shape entry.data entry.full)
    {found full : Fields Data} (distinct : (found.names ++ entries.map Entry.key).Nodup)
    (filled : Shape.fill (found ++ entries.map Entry.filled) fields = .ok full)
    (first : Bool) (level : Nat) {depth steps : Nat}
    (shallow : Shape.heightOfFields fields ≤ depth)
    (enough : 2 * (spellFields layout level first (entries.map Entry.given)).length +
      Shape.heightOfFields fields < steps) (blank : IsGap gap) (rest : List Char) :
    readNamedFrom steps depth isClosed fields found first
        (spellFields layout level first (entries.map Entry.given) ++ (gap ++ '\x7d' :: rest)) =
      .ok (.record full, '\x7d' :: rest) := by
  induction entries generalizing found first steps with
  | nil =>
    obtain ⟨steps, rfl⟩ := Nat.exists_eq_add_of_lt enough
    rw [List.map_nil, List.append_nil] at filled
    rw [List.map_nil, spellFields, List.nil_append, readNamedFrom, nextKey_close blank]
    simp only [filled, skipSpaces_gap blank (show isSpace '\x7d' = false from rfl)]
  | cons entry entries ih =>
    obtain ⟨steps, rfl⟩ := Nat.exists_eq_add_of_le' (Nat.one_le_of_lt enough)
    have declared := known entry (List.mem_cons_self ..)
    have lower := Shape.height_le_heightOfFields declared
    have new : entry.key ∉ found.names := fun mem =>
      (List.nodup_append.mp distinct).2.2 _ mem _ (List.mem_cons_self ..) rfl
    simp only [List.map_cons, Entry.given, spellFields, List.length_append, List.length_cons,
      List.append_assoc, List.cons_append] at enough ih ⊢
    rw [readNamedFrom_field (nextKey_key _ (layout.isGap_newLine level)) declared new
        (inside entry (List.mem_cons_self ..) level _ layout.isGap_afterColon
          (Nat.le_trans lower shallow) (by omega)),
      ih (fun other mem => known other (List.mem_cons_of_mem _ mem))
        (fun other mem => inside other (List.mem_cons_of_mem _ mem)) (by simpa using distinct)
        (by simpa [Entry.filled] using filled) _ (by omega)]

theorem readsShape_record {name : String} {isClosed : Bool}
    {fields : List (String × Shape × Option Data)} {entries : List Entry} {full : Fields Data}
    (distinct : (entries.map Entry.key).Nodup)
    (known : ∀ entry ∈ entries, Shape.shapeOf? entry.key fields = some entry.shape)
    (inside : ∀ entry ∈ entries, ReadsShape layout entry.shape entry.data entry.full)
    (filled : Shape.fill (entries.map Entry.filled) fields = .ok full) :
    ReadsShape layout (.record name isClosed fields) (.record (entries.map Entry.given))
      (.record full) := by
  intro level gap depth steps rest blank shallow enough
  rw [spell, List.length_cons, List.length_append, Shape.height] at enough
  rw [Shape.height] at shallow
  obtain ⟨steps, rfl⟩ := Nat.exists_eq_add_of_le' (show 1 ≤ steps by omega)
  obtain ⟨depth, rfl⟩ := Nat.exists_eq_add_of_le' (show 1 ≤ depth by omega)
  rw [readShapeFrom_record _ _ (skipSpaces_spell_record blank ..),
    readNamedFrom_spellFields known inside (by simpa using distinct) filled true (level + 1)
      (Nat.le_of_succ_le_succ shallow) (by omega) (layout.isGap_beforeEnd level _)]
  rfl

/-- The text of data that fits a shape is read as its full form. -/
theorem readsShape {shape : Shape} {data full : Data} (fits : Fits shape data full)
    (layout : Layout) : ReadsShape layout shape data full := by
  induction fits with
  | text value => exact readsShape_text layout value
  | absent inner => exact readsShape_absent layout inner
  | present notNull fits ih => exact readsShape_present notNull fits ih
  | choice known => exact readsShape_choice layout known
  | texts distinct => exact readsShape_texts layout distinct
  | list all ih => exact readsShape_list all ih
  | record distinct known all filled ih => exact readsShape_record distinct known ih filled

/-! ### Whole texts -/

/-- A text of data that fits a shape, between any blanks, is read as the full form, whatever the
layout. -/
theorem readAs_spell {shape : Shape} {data full : Data} (fits : Fits shape data full)
    (shallow : shape.height ≤ 64) (layout : Layout) (level : Nat) {before after : List Char}
    (blankBefore : IsGap before) (blankAfter : IsGap after) :
    readAs shape (String.ofList (before ++ (spell layout level data ++ after))) = .ok full := by
  have ended : skipSpaces after = [] := by
    simpa [skipSpaces] using skipSpaces_append blankAfter []
  have read : readShapeFrom (3 * (before ++ (spell layout level data ++ after)).length + 64)
      maxDepth shape (before ++ (spell layout level data ++ after)) = .ok (full, after) :=
    readsShape fits layout level after blankBefore (Nat.le_trans shallow (by decide))
      (by simp only [List.length_append]; omega)
  rw [readAs, String.toList_ofList]
  simp only [read, readEnd, ended]
  rfl

/-- Data that fits a shape survives its compact text. -/
theorem readAs_write {shape : Shape} {data full : Data} (fits : Fits shape data full)
    (shallow : shape.height ≤ 64) : readAs shape (write data) = .ok full := by
  have read := readAs_spell fits shallow compactLayout 0 isGap_nil isGap_nil
  rwa [List.nil_append, List.append_nil, spell_compactLayout] at read

/-- Data that fits a shape survives its text with one item a line. -/
theorem readAs_writePretty {shape : Shape} {data full : Data} (fits : Fits shape data full)
    (shallow : shape.height ≤ 64) : readAs shape (writePretty data) = .ok full := by
  have read := readAs_spell fits shallow prettyLayout 0 isGap_nil isGap_nil
  rwa [List.nil_append, List.append_nil, spell_prettyLayout] at read

end Json

end CiTranslate
