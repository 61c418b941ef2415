import CiTranslate.Json.Reader
import CiTranslate.Json.Writer
import CiTranslate.Proofs.Node

/-!
Compact JSON texts of documents are read back.

A document holds no numbers, only nulls, texts, lists and records, so its compact text ends
where the reader stops, whatever follows (`readsBack`). Reading gives the document's own data,
and fails exactly for documents that are nested too deeply (`read_write_toData`).
-/

namespace CiTranslate.Json

/-! ### Texts -/

theorem readHex4_control {n : Nat} (control : n < 0x20) (rest : List Char) :
    readHex4 ('0' :: '0' :: (hexByte n ++ rest)) = .ok (n, rest) := by
  have digits : ∀ n < 0x20, Text.natural? 16 ('0' :: '0' :: hexByte n) = some n := by decide
  have value := digits n control
  simp only [hexByte] at value
  simp [readHex4, hexByte, value]

theorem readEscape_control {c : Char} (control : c.toNat < 0x20) (rest : List Char) :
    readEscape ('u' :: '0' :: '0' :: (hexByte c.toNat ++ rest)) = .ok (c, rest) := by
  have trailing : isTrailingSurrogate c.toNat = false := by
    simp only [isTrailingSurrogate, Bool.and_eq_false_iff, decide_eq_false_iff_not]
    omega
  have leading : isLeadingSurrogate c.toNat = false := by
    simp only [isLeadingSurrogate, Bool.and_eq_false_iff, decide_eq_false_iff_not]
    omega
  simp [readEscape, shortEscape?, readNumeric, readHex4_control control, trailing, leading,
    Char.ofNat_toNat]

/-- An escaped character is read back in one step. -/
theorem readCharsFrom_escape (c : Char) (steps : Nat) (read rest : List Char) :
    readCharsFrom (steps + 1) read (escape c ++ rest) = readCharsFrom steps (c :: read) rest := by
  unfold escape
  split
  · rfl
  · rfl
  · rfl
  · rfl
  · rfl
  · rfl
  · rfl
  · next notQuote notBackslash _ _ _ _ _ =>
    split
    · next control =>
      rw [List.append_assoc]
      simp only [List.cons_append, List.nil_append]
      rw [readCharsFrom, if_neg (by decide), if_pos rfl, readEscape_control control]
    · next visible =>
      rw [List.singleton_append, readCharsFrom, if_neg (show c ≠ quote from notQuote),
        if_neg (show c ≠ backslash from notBackslash), if_neg visible]

theorem readCharsFrom_flatMap_escape (text : List Char) {steps : Nat} (enough : text.length < steps)
    (read rest : List Char) :
    readCharsFrom steps read (text.flatMap escape ++ quote :: rest) =
      .ok (read.reverse ++ text, rest) := by
  induction text generalizing steps read with
  | nil =>
    obtain ⟨steps, rfl⟩ := Nat.exists_eq_add_of_lt enough
    simp [readCharsFrom]
  | cons c text ih =>
    obtain ⟨steps, rfl⟩ : ∃ n, steps = n + 1 := ⟨steps - 1, by simp at enough; omega⟩
    rw [List.flatMap_cons, List.append_assoc, readCharsFrom_escape,
      ih (by simpa using enough), List.reverse_cons, List.append_assoc, List.singleton_append]

theorem length_le_flatMap_escape (text : List Char) :
    text.length ≤ (text.flatMap escape).length := by
  induction text with
  | nil => exact Nat.le_refl 0
  | cons c text ih =>
    have some : 1 ≤ (escape c).length := by unfold escape; repeat' split <;> simp
    rw [List.flatMap_cons, List.length_append, List.length_cons]
    omega

/-- A text is read back after its opening quote. -/
theorem readText_writeText (text : String) (rest : List Char) :
    readText (text.toList.flatMap escape ++ quote :: rest) = .ok (text, rest) := by
  have enough : text.toList.length <
      (text.toList.flatMap escape ++ quote :: rest).length + 1 := by
    have := length_le_flatMap_escape text.toList
    rw [List.length_append]
    omega
  rw [readText, readCharsFrom_flatMap_escape _ enough]
  simp [Except.map]

/-! ### Items and fields

The first item of a list stands alone, the others behind a comma, and a record is written in
the same way. -/

/-- What stands before an item or a field. -/
def separator (first : Bool) : List Char := if first then [] else [',']

/-- Items up to the end of their list. -/
def itemsFrom (first : Bool) : List Data → List Char
  | [] => []
  | item :: items => separator first ++ (compact item ++ itemsFrom false items)

/-- Fields up to the end of their record. -/
def fieldsFrom (first : Bool) : List (String × Data) → List Char
  | [] => []
  | (key, value) :: fields =>
    separator first ++ (writeText key ++ ':' :: (compact value ++ fieldsFrom false fields))

theorem compactItems_eq (items : List Data) : compactItems items = itemsFrom true items := by
  induction items with
  | nil => rfl
  | cons item items ih =>
    cases items with
    | nil => simp [compactItems, itemsFrom, separator]
    | cons next items => simp [compactItems, itemsFrom, separator, ih]

theorem compactFields_eq (fields : List (String × Data)) :
    compactFields fields = fieldsFrom true fields := by
  induction fields with
  | nil => rfl
  | cons field fields ih =>
    cases fields with
    | nil => simp [compactFields, fieldsFrom, separator]
    | cons next fields => simp [compactFields, fieldsFrom, separator, ih]

/-- The text of a document starts with a letter, a quote or an opening bracket. -/
theorem compact_toData_eq_cons (node : Node) :
    ∃ c text, compact node.toData = c :: text ∧ c ∈ ['n', '"', '[', '\x7b'] := by
  cases node with
  | null => exact ⟨'n', ['u', 'l', 'l'], rfl, by simp⟩
  | scalar text => exact ⟨_, _, rfl, by simp [quote]⟩
  | sequence items => exact ⟨_, _, rfl, by simp⟩
  | mapping entries => exact ⟨_, _, rfl, by simp⟩

theorem nextItem_compact (first : Bool) (node : Node) (rest : List Char) :
    nextItem first (separator first ++ (compact node.toData ++ rest)) =
      .ok (.item (compact node.toData ++ rest)) := by
  obtain ⟨c, text, shape, start⟩ := compact_toData_eq_cons node
  rw [shape]
  simp only [List.mem_cons, List.not_mem_nil, or_false] at start
  cases first <;> rcases start with rfl | rfl | rfl | rfl <;> rfl

theorem nextKey_writeText (first : Bool) (key : String) (rest : List Char) :
    nextKey first (separator first ++ (writeText key ++ rest)) =
      .ok (.item (key.toList.flatMap escape ++ quote :: rest)) := by
  rw [writeText, List.cons_append, List.append_assoc]
  cases first <;> rfl

/-! ### Documents -/

mutual

/-- How many levels of lists and records a document has. -/
def height : Node → Nat
  | .null => 0
  | .scalar _ => 0
  | .sequence items => heightOfItems items + 1
  | .mapping entries => heightOfEntries entries + 1

def heightOfItems : List Node → Nat
  | [] => 0
  | item :: items => max (height item) (heightOfItems items)

def heightOfEntries : List (String × Node) → Nat
  | [] => 0
  | (_, node) :: entries => max (height node) (heightOfEntries entries)

end

/-- The text of a document is read back, whatever follows it, as long as levels and steps
suffice. -/
def ReadsBack (node : Node) : Prop :=
  ∀ {steps : Nat} (depth : Nat) (rest : List Char), 2 * (compact node.toData).length ≤ steps →
    (readValueFrom steps depth (compact node.toData ++ rest)).toOption =
      if height node ≤ depth then some (node.toData, rest) else none

/-- A list is read item by item. -/
theorem readItemsFrom_item {read : List Data} {text next : List Char} (steps depth : Nat)
    (found : nextItem read.isEmpty text = .ok (.item next)) :
    (readItemsFrom (steps + 1) depth read text).toOption =
      (readValueFrom steps depth next).toOption.bind fun (item, rest) =>
        (readItemsFrom steps depth (item :: read) rest).toOption := by
  rw [readItemsFrom, found]
  cases value : readValueFrom steps depth next <;> simp only [value] <;> rfl

/-- A record is read field by field. -/
theorem readFieldsFrom_field {read : List (String × Data)} {text : List Char} (steps depth : Nat)
    {key : String} {rest : List Char}
    (found : nextKey read.isEmpty text =
      .ok (.item (key.toList.flatMap escape ++ quote :: ':' :: rest))) :
    (readFieldsFrom (steps + 1) depth read text).toOption =
      (readValueFrom steps depth rest).toOption.bind fun (value, rest) =>
        (readFieldsFrom steps depth (Fields.put key value read) rest).toOption := by
  have colon : readColon (':' :: rest) = .ok rest := rfl
  rw [readFieldsFrom, found]
  simp only [readText_writeText, colon]
  cases readValueFrom steps depth rest <;> rfl

theorem readItemsFrom_itemsFrom {items : List Node} (all : ∀ item ∈ items, ReadsBack item)
    {steps : Nat} (depth : Nat) (read : List Data) (rest : List Char)
    (enough : 2 * (itemsFrom read.isEmpty (items.map Node.toData)).length < steps) :
    (readItemsFrom steps depth read
        (itemsFrom read.isEmpty (items.map Node.toData) ++ ']' :: rest)).toOption =
      if heightOfItems items ≤ depth
      then some (.list (read.reverse ++ items.map Node.toData), rest) else none := by
  induction items generalizing read steps with
  | nil =>
    obtain ⟨steps, rfl⟩ := Nat.exists_eq_add_of_lt enough
    simp [itemsFrom, readItemsFrom, nextItem, skipSpaces, isSpace, heightOfItems, Except.toOption]
  | cons item items ih =>
    obtain ⟨steps, rfl⟩ := Nat.exists_eq_add_of_lt enough
    obtain ⟨c, text, shape, -⟩ := compact_toData_eq_cons item
    have positive : 0 < (compact item.toData).length := by simp [shape]
    simp only [List.map_cons, itemsFrom, List.length_append, List.append_assoc] at enough ⊢
    rw [readItemsFrom_item _ _ (nextItem_compact ..),
      all item (List.mem_cons_self ..) _ _ (by omega)]
    by_cases shallow : height item ≤ depth
    · rw [if_pos shallow, Option.bind_some]
      dsimp only
      rw [show false = (item.toData :: read).isEmpty from rfl,
        ih (fun other mem => all other (List.mem_cons_of_mem _ mem)) (item.toData :: read)
          (by simp only [List.isEmpty_cons]; omega)]
      simp only [heightOfItems, Nat.max_le, shallow, true_and, List.reverse_cons,
        List.append_assoc, List.singleton_append]
    · rw [if_neg shallow, if_neg (by rw [heightOfItems, Nat.max_le]; exact fun h => shallow h.1)]
      rfl

theorem readFieldsFrom_fieldsFrom {entries : List (String × Node)}
    (all : ∀ entry ∈ entries, ReadsBack entry.2) {steps : Nat} (depth : Nat)
    (read : List (String × Data))
    (distinct : (Fields.names read ++ Fields.names entries).Nodup) (rest : List Char)
    (enough : 2 * (fieldsFrom read.isEmpty (Fields.mapValues Node.toData entries)).length < steps) :
    (readFieldsFrom steps depth read (fieldsFrom read.isEmpty
        (Fields.mapValues Node.toData entries) ++ '\x7d' :: rest)).toOption =
      if heightOfEntries entries ≤ depth
      then some (.record (read ++ Fields.mapValues Node.toData entries), rest) else none := by
  induction entries generalizing read steps with
  | nil =>
    obtain ⟨steps, rfl⟩ := Nat.exists_eq_add_of_lt enough
    simp [Fields.mapValues, fieldsFrom, readFieldsFrom, nextKey, skipSpaces, isSpace,
      heightOfEntries, Except.toOption]
  | cons entry entries ih =>
    obtain ⟨steps, rfl⟩ := Nat.exists_eq_add_of_lt enough
    obtain ⟨key, node⟩ := entry
    have new : key ∉ Fields.names read := fun mem =>
      (List.nodup_append.mp distinct).2.2 key mem key (List.mem_cons_self ..) rfl
    have started : (read ++ [(key, node.toData)]).isEmpty = false := by simp
    simp only [Fields.mapValues, List.map_cons, fieldsFrom, List.length_append, List.length_cons,
      List.append_assoc, List.cons_append] at enough ih ⊢
    rw [readFieldsFrom_field _ _ (nextKey_writeText ..),
      all (key, node) (List.mem_cons_self ..) _ _ (by dsimp only; omega)]
    by_cases shallow : height node ≤ depth
    · rw [if_pos shallow, Option.bind_some]
      dsimp only
      rw [Fields.put_eq_append new, ← started,
        ih (fun other mem => all other (List.mem_cons_of_mem _ mem)) _ (by simpa using distinct)
          (by rw [started]; omega)]
      simp only [heightOfEntries, Nat.max_le, shallow, true_and, List.append_assoc,
        List.cons_append, List.nil_append]
    · rw [if_neg shallow, if_neg (by rw [heightOfEntries, Nat.max_le]; exact fun h => shallow h.1)]
      rfl

theorem compact_sequence (items : List Node) : compact (Node.sequence items).toData =
    '[' :: (itemsFrom true (items.map Node.toData) ++ [']']) := by
  rw [Node.toData, compact, compactItems_eq, Node.itemsToData_eq_map]

theorem compact_mapping (entries : List (String × Node)) : compact (Node.mapping entries).toData =
    '\x7b' :: (fieldsFrom true (Fields.mapValues Node.toData entries) ++ ['\x7d']) := by
  rw [Node.toData, compact, compactFields_eq, Node.entriesToData_eq_mapValues]

theorem readValueFrom_list (steps depth : Nat) (text : List Char) :
    readValueFrom (steps + 1) (depth + 1) ('[' :: text) = readItemsFrom steps depth [] text := rfl

theorem readValueFrom_record (steps depth : Nat) (text : List Char) :
    readValueFrom (steps + 1) (depth + 1) ('\x7b' :: text) = readFieldsFrom steps depth [] text :=
  rfl

theorem readValueFrom_text (steps depth : Nat) (text : List Char) :
    readValueFrom (steps + 1) depth (quote :: text) =
      (readText text).map fun (value, rest) => (.text value, rest) := rfl

theorem readsBack_null : ReadsBack .null := by
  intro steps depth rest enough
  obtain ⟨steps, rfl⟩ := Nat.exists_eq_add_of_le' (show 1 ≤ steps from Nat.one_le_of_lt enough)
  rw [height, if_pos (Nat.zero_le depth)]
  rfl

theorem readsBack_scalar (text : String) : ReadsBack (.scalar text) := by
  intro steps depth rest enough
  have shape :
      compact (Node.scalar text).toData = quote :: (text.toList.flatMap escape ++ [quote]) := rfl
  rw [shape, List.length_cons] at enough
  obtain ⟨steps, rfl⟩ := Nat.exists_eq_add_of_le' (show 1 ≤ steps by omega)
  rw [shape, List.cons_append, List.append_assoc, readValueFrom_text, List.singleton_append,
    readText_writeText, height, if_pos (Nat.zero_le depth)]
  rfl

theorem readsBack_sequence {items : List Node} (all : ∀ item ∈ items, ReadsBack item) :
    ReadsBack (.sequence items) := by
  intro steps depth rest enough
  rw [compact_sequence, List.length_cons, List.length_append] at enough
  obtain ⟨steps, rfl⟩ := Nat.exists_eq_add_of_le' (show 1 ≤ steps by omega)
  rw [compact_sequence, height, List.cons_append, List.append_assoc, List.singleton_append]
  cases depth with
  | zero => rfl
  | succ depth =>
    rw [readValueFrom_list, Node.toData, Node.itemsToData_eq_map]
    simpa using readItemsFrom_itemsFrom all depth [] rest
      (show _ < steps by simp only [List.isEmpty_nil]; omega)

theorem readsBack_mapping {entries : List (String × Node)} (distinct : (Fields.names entries).Nodup)
    (all : ∀ entry ∈ entries, ReadsBack entry.2) : ReadsBack (.mapping entries) := by
  intro steps depth rest enough
  rw [compact_mapping, List.length_cons, List.length_append] at enough
  obtain ⟨steps, rfl⟩ := Nat.exists_eq_add_of_le' (show 1 ≤ steps by omega)
  rw [compact_mapping, height, List.cons_append, List.append_assoc, List.singleton_append]
  cases depth with
  | zero => rfl
  | succ depth =>
    rw [readValueFrom_record, Node.toData, Node.entriesToData_eq_mapValues]
    simpa using readFieldsFrom_fieldsFrom all depth [] (by simpa using distinct) rest
      (show _ < steps by simp only [List.isEmpty_nil]; omega)

/-- Documents with distinct keys are read back. -/
theorem readsBack {node : Node} (distinct : node.KeysDistinct) : ReadsBack node := by
  induction distinct with
  | null => exact readsBack_null
  | scalar text => exact readsBack_scalar text
  | sequence _ ih => exact readsBack_sequence ih
  | mapping distinct _ ih => exact readsBack_mapping distinct ih

theorem toOption_read (text : String) :
    (read text).toOption =
      (readValue text.toList).toOption.bind fun (data, rest) => (readEnd data rest).toOption := by
  rw [read, readChars]
  cases readValue text.toList with
  | error fault => rfl
  | ok value =>
    change ((readEnd value.1 value.2).mapError _).toOption = (readEnd value.1 value.2).toOption
    cases readEnd value.1 value.2 <;> rfl

/-- A document is read back from its compact text exactly when it is not nested too deeply, and
nothing else is read from that text. -/
theorem read_write_toData {node : Node} (distinct : node.KeysDistinct) :
    (read (write node.toData)).toOption =
      if height node ≤ maxDepth then some node.toData else none := by
  have value := readsBack distinct maxDepth [] (Nat.le_add_right _ 2)
  rw [List.append_nil] at value
  rw [toOption_read, write, String.toList_ofList, readValue, value]
  split <;> rfl

/-! ### Texts that start with a bracket -/

/-- What is read after the opening bracket of a list is a list. -/
theorem exists_list_of_readItemsFrom {steps depth : Nat} {read : List Data} {text : List Char}
    {result : Data × List Char} (success : readItemsFrom steps depth read text = .ok result) :
    ∃ items, result.1 = .list items := by
  induction steps generalizing read text with
  | zero => cases success
  | succ steps ih =>
    rw [readItemsFrom] at success
    split at success
    · cases success
    · cases success
      exact ⟨_, rfl⟩
    · split at success
      · cases success
      · exact ih success

/-- What is read after the opening bracket of a record is a record. -/
theorem exists_record_of_readFieldsFrom {steps depth : Nat} {read : List (String × Data)}
    {text : List Char} {result : Data × List Char}
    (success : readFieldsFrom steps depth read text = .ok result) :
    ∃ fields, result.1 = .record fields := by
  induction steps generalizing read text with
  | zero => cases success
  | succ steps ih =>
    rw [readFieldsFrom] at success
    split at success
    · cases success
    · cases success
      exact ⟨_, rfl⟩
    · split at success
      · cases success
      · split at success
        · cases success
        · split at success
          · cases success
          · exact ih success

theorem eq_of_readEnd {α : Type} {value result : α} {text : List Char}
    (success : (readEnd value text).toOption = some result) : value = result := by
  unfold readEnd at success
  split at success
  · exact Option.some.inj success
  · cases success

/-- A text that starts with a bracket is read as a list or a record. -/
theorem list_or_record_of_read {text : String} {c : Char} {rest : List Char} {data : Data}
    (shape : text.toList = c :: rest) (bracket : c = '[' ∨ c = '\x7b')
    (success : read text = .ok data) :
    (∃ items, data = .list items) ∨ ∃ fields, data = .record fields := by
  have found := toOption_read text
  rw [success, shape, readValue, show maxDepth = 126 + 1 from rfl] at found
  obtain ⟨⟨value, more⟩, result, ended⟩ := Option.bind_eq_some_iff.mp found.symm
  obtain rfl := eq_of_readEnd ended
  rcases bracket with rfl | rfl
  · rw [readValueFrom_list] at result
    cases items : readItemsFrom (2 * ('[' :: rest).length + 1) 126 [] rest with
    | error fault => rw [items] at result; cases result
    | ok pair =>
      rw [items] at result
      cases result
      exact .inl (exists_list_of_readItemsFrom items)
  · rw [readValueFrom_record] at result
    cases fields : readFieldsFrom (2 * ('\x7b' :: rest).length + 1) 126 [] rest with
    | error fault => rw [fields] at result; cases result
    | ok pair =>
      rw [fields] at result
      cases result
      exact .inr (exists_record_of_readFieldsFrom fields)

end CiTranslate.Json
