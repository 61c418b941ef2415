import CiTranslate.Proofs.Data
import CiTranslate.Proofs.Yaml.Entry
import CiTranslate.Yaml.Writer

/-!
The tokens of a written document.

They follow the structure of its data (`nodeKinds`), and neither columns nor styles have a part in
them beyond how a scalar is read. They are read back in one run over the text, even if that has
lost its last line end (`exists_tokens`).
-/

namespace CiTranslate

mutual

/-- The text that a document ends with. -/
def Data.lastText? : Data → Option String
  | .text value => some value
  | .list items => lastTextOfItems? items
  | .record fields => lastTextOfFields? fields
  | _ => none

def Data.lastTextOfItems? : List Data → Option String
  | [] => none
  | [item] => lastText? item
  | _ :: item :: items => lastTextOfItems? (item :: items)

def Data.lastTextOfFields? : List (String × Data) → Option String
  | [] => none
  | [(_, value)] => lastText? value
  | _ :: field :: fields => lastTextOfFields? (field :: fields)

end

namespace Yaml

/-! ### Tokens of data -/

/-- A number, a truth value or null. -/
def wordKind (word : String) : TokenKind := .scalar word.toList .plain

mutual

/-- The tokens of a value. The items of a list that belongs to a simple key open no block. -/
def nodeKinds (loose : Bool) : Data → List TokenKind
  | .list [] => [.flowSequenceStart, .flowSequenceEnd]
  | .list (item :: items) =>
    if loose then itemKinds (item :: items)
    else .blockSequenceStart :: itemKinds (item :: items) ++ [.blockEnd]
  | .record [] => [.flowMappingStart, .flowMappingEnd]
  | .record (field :: fields) =>
    .blockMappingStart :: fieldKinds (field :: fields) ++ [.blockEnd]
  | .text value => [textKind value]
  | .null => [wordKind "null"]
  | .bool value => [wordKind (if value then "true" else "false")]
  | .int value => [wordKind (toString value)]
  | .float value => [wordKind (doubles.write value)]

def itemKinds : List Data → List TokenKind
  | [] => []
  | item :: items => .blockEntry :: nodeKinds false item ++ itemKinds items

def fieldKinds : List (String × Data) → List TokenKind
  | [] => []
  | (key, value) :: fields =>
    .key :: textKind key :: .value :: nodeKinds (isSimpleKey key) value ++ fieldKinds fields

end

/-! ### Reading a value -/

/-- The last line end of a document is not one of its last text. Only a literal block ends with a
line end of its text: between quotes, a quote stands behind it. -/
def EndsSolid (last? : Option String) : Prop :=
  ∀ text ∈ last?, styleOf text.toList = .literal → ∀ c ∈ text.toList.getLast?, isBreak c = false

instance (last? : Option String) : Decidable (EndsSolid last?) :=
  inferInstanceAs (Decidable (∀ text ∈ last?, _ → ∀ c ∈ text.toList.getLast?, _))

example : EndsSolid (some "a \n") ∧ ¬EndsSolid (some "a\n") := by decide

/-- The tokens of a value are read behind the mark of an entry, and behind a simple key. -/
structure TokensRead (data : Data) : Prop where
  filled (column : Nat) : afterMark column data ≠ []
  blank (column : Nat) : ∃ c d more, afterKey column data = c :: d :: more ∧ isBlankOrBreak c = true
  afterMark {scan : Scan} {kinds : List TokenKind} {levels : List Int} {column n : Nat} {cut : Bool}
    {rest : List Char}
    (comes : scan.Comes kinds (column :: levels) true (column + 2)
      (cutEnd cut (afterMark column data) ++ (spaces n ++ rest)))
    (last : cut = true → EndsSolid data.lastText?) (follows : Follows cut column n rest) :
    ∃ next, scan.Steps next ∧
      next.Comes (kinds ++ nodeKinds false data) (column :: levels) true n rest
  afterKey {scan : Scan} {kinds : List TokenKind} {levels : List Int} {column n : Nat} {cut : Bool}
    {rest : List Char} (holds : scan.Holds kinds (column :: levels))
    (none : scan.candidates = [none]) (noKey : scan.keyAllowed = false)
    (left : scan.cursor.rest = cutEnd cut (afterKey column data) ++ (spaces n ++ rest))
    (behind : column < scan.cursor.mark.column)
    (last : cut = true → EndsSolid data.lastText?) (follows : Follows cut column n rest) :
    ∃ next, scan.Steps next ∧
      next.Comes (kinds ++ nodeKinds true data) (column :: levels) true n rest

/-- What takes one line is read alike behind marks and keys. -/
theorem tokensRead_of_line {data : Data} (line : Nat → List Char) (kinds : List TokenKind)
    (mark : ∀ column, afterMark column data = line (column + 2))
    (key : ∀ column, afterKey column data = ' ' :: line (column + 2))
    (filled : ∀ column, line column ≠ []) (same : ∀ loose, nodeKinds loose data = kinds)
    (reads : ∀ {scan : Scan} {read : List TokenKind} {levels : List Int} {allowed cut : Bool}
      {top column n : Nat} {rest : List Char},
      scan.Comes read (top :: levels) allowed column
        (cutEnd cut (line (top + 2)) ++ (spaces n ++ rest)) →
      (cut = true → EndsSolid data.lastText?) → top < column → Follows cut top n rest →
      ∃ next, scan.Steps next ∧ next.Comes (read ++ kinds) (top :: levels) true n rest) :
    TokensRead data where
  filled column := by rw [mark]; exact filled _
  blank column := by
    obtain ⟨c, more, shape⟩ := List.exists_cons_of_ne_nil (filled (column + 2))
    exact ⟨' ', c, more, by rw [key, shape], rfl⟩
  afterMark comes last follows := by
    rw [mark] at comes
    rw [same]
    exact reads comes last (by omega) follows
  afterKey {scan _ _ column n cut rest} holds none noKey left behind last follows := by
    rw [key, show ' ' :: line (column + 2) = [' '] ++ line (column + 2) from rfl,
      cutEnd_append cut _ (filled _), List.append_assoc] at left
    rw [same]
    have cursor : scan.cursor = ⟨spaces 1 ++ (cutEnd cut (line (column + 2)) ++ (spaces n ++ rest)),
        scan.cursor.mark⟩ := by
      rw [show spaces 1 = [' '] from rfl, ← left]
    exact reads ⟨holds.within _, .blanks none noKey cursor⟩ last (by omega) follows

theorem tokensRead_word {data : Data} {word : String} (plain : PlainWord word.toList)
    (mark : ∀ column, afterMark column data = word.toList ++ ['\n'])
    (key : ∀ column, afterKey column data = ' ' :: (word.toList ++ ['\n']))
    (same : ∀ loose, nodeKinds loose data = [wordKind word]) : TokensRead data := by
  refine tokensRead_of_line (fun _ => word.toList ++ ['\n']) [wordKind word] mark key (by simp) same
    fun comes _ inside follows => ?_
  rw [cutEnd_append _ _ (List.cons_ne_nil _ _), List.append_assoc] at comes
  obtain ⟨next, step, after⟩ := comes.exists_plain plain inside follows
  exact ⟨next, .single step, after⟩

theorem tokensRead_number {data : Data} {word : String} (plain : PlainWord word.toList)
    (mark : ∀ column, afterMark column data = (word ++ "\n").toList)
    (key : ∀ column, afterKey column data = (" " ++ word ++ "\n").toList)
    (same : ∀ loose, nodeKinds loose data = [wordKind word]) : TokensRead data :=
  tokensRead_word plain (fun column => by rw [mark, String.toList_append]; rfl)
    (fun column => by rw [key, String.toList_append, String.toList_append]; rfl) same

theorem tokensRead_text (text : String) : TokensRead (.text text) := by
  have filled (column : Nat) : textLine column text ≠ [] := by
    unfold textLine
    dsimp only
    split <;> simp [literalBlock]
  refine tokensRead_of_line (textLine · text) [textKind text]
    (fun _ => rfl) (fun _ => rfl) filled (fun _ => rfl)
    fun comes last inside follows => ?_
  obtain ⟨next, step, after⟩ :=
    comes.exists_text (fun cut => last cut text rfl) inside follows
  exact ⟨next, .single step, after⟩

theorem tokensRead_brackets {data : Data} {o c : Char} {start stop : TokenKind}
    (pair : Scan.Brackets o c start stop) (mark : ∀ column, afterMark column data = [o, c, '\n'])
    (key : ∀ column, afterKey column data = [' ', o, c, '\n'])
    (same : ∀ loose, nodeKinds loose data = [start, stop]) : TokensRead data := by
  refine tokensRead_of_line (fun _ => [o, c, '\n']) [start, stop] mark key (by simp) same
    fun comes _ inside follows => ?_
  rw [show [o, c, '\n'] = [o, c] ++ ['\n'] from rfl,
    cutEnd_append _ _ (List.cons_ne_nil _ _)] at comes
  exact comes.exists_brackets pair inside follows

/-! ### Reading entries -/

/-- The tokens of an entry, or of several ones, are read in their column, where a block is opened
unless one is open. -/
structure EntryRead (opening : TokenKind) (column : Nat) (text : List Char)
    (kinds : List TokenKind) (last? : Option String) : Prop where
  starts : ∃ c d more, text = c :: d :: more ∧ ∀ rest, AtToken (c :: rest)
  reads {scan : Scan} {read : List TokenKind} {l : Int} {levels : List Int} {n : Nat} {cut : Bool}
    {rest : List Char}
    (comes : scan.Comes read (l :: levels) true column (cutEnd cut text ++ (spaces n ++ rest)))
    (stays : l ≤ column) (last : cut = true → EndsSolid last?)
    (follows : Follows cut column n rest) :
    ∃ next, scan.Steps next ∧ next.Comes (read ++ Scan.openKinds l column opening ++ kinds)
      (Scan.opened l column levels) true n rest

section EntryRead

variable {opening : TokenKind} {column : Nat} {text : List Char} {kinds : List TokenKind}
  {last? : Option String}

theorem EntryRead.filled (entry : EntryRead opening column text kinds last?) : text ≠ [] := by
  obtain ⟨c, d, more, rfl, -⟩ := entry.starts
  exact List.cons_ne_nil _ _

theorem EntryRead.token (entry : EntryRead opening column text kinds last?) (cut : Bool)
    (rest : List Char) : AtToken (cutEnd cut text ++ rest) := by
  obtain ⟨c, d, more, rfl, token⟩ := entry.starts
  rw [show c :: d :: more = [c] ++ d :: more from rfl, cutEnd_append _ _ (List.cons_ne_nil _ _)]
  exact token _

end EntryRead

theorem exists_opened {l : Int} {column : Nat} (stays : l ≤ column) (levels : List Int) :
    ∃ outer, Scan.opened l column levels = (column : Int) :: outer := by
  unfold Scan.opened
  split
  · next right => exact ⟨levels, by rw [Int.le_antisymm stays right]⟩
  · exact ⟨_, rfl⟩

theorem opened_self (column : Nat) (levels : List Int) :
    Scan.opened column column levels = (column : Int) :: levels := if_pos (Int.le_refl _)

theorem openKinds_self (column : Nat) (kind : TokenKind) :
    Scan.openKinds column column kind = [] := if_pos (Int.le_refl _)

/-- Entries are read one after the other. -/
theorem entryRead_stack {α : Type} {opening : TokenKind} {column : Nat} {text : α → List Char}
    {kinds : α → List TokenKind} {last? : α → Option String} {first : α} {entries : List α}
    (all : ∀ entry ∈ first :: entries,
      EntryRead opening column (text entry) (kinds entry) (last? entry)) :
    EntryRead opening column (stack column ((first :: entries).map text))
      ((first :: entries).flatMap kinds) ((first :: entries).getLast?.bind last?) := by
  induction entries generalizing first with
  | nil => simpa [stack] using all first (List.mem_cons_self ..)
  | cons second entries ih =>
    have own := all first (List.mem_cons_self ..)
    have others := @ih second fun entry mem => all entry (List.mem_cons_of_mem _ mem)
    have shape : stack column ((first :: second :: entries).map text) =
        text first ++ (spaces column ++ stack column ((second :: entries).map text)) := by
      simp [stack]
    rw [shape]
    refine ⟨?_, fun {scan read l levels n cut rest} comes stays last follows => ?_⟩
    · obtain ⟨c, d, more, start, token⟩ := own.starts
      exact ⟨c, d, _, by rw [start]; rfl, token⟩
    · rw [cutEnd_append _ _ (List.append_ne_nil_of_right_ne_nil _ others.filled),
        cutEnd_append _ _ others.filled, List.append_assoc, List.append_assoc] at comes
      have token := others.token cut (spaces n ++ rest)
      obtain ⟨middle, steps, comes⟩ :=
        @EntryRead.reads _ _ _ _ _ own scan read l levels column false _ comes stays
          (fun cut => absurd cut Bool.false_ne_true)
          ⟨Nat.le_refl _, token, fun cut => absurd cut Bool.false_ne_true⟩
      obtain ⟨outer, around⟩ := exists_opened stays levels
      rw [around] at comes ⊢
      obtain ⟨next, more, comes⟩ := others.reads comes (Int.le_refl _) (by simpa using last) follows
      refine ⟨next, steps.trans more, ?_⟩
      simpa [opened_self, openKinds_self] using comes

theorem entryRead_item {column : Nat} {item : Data} (read : TokensRead item) :
    EntryRead .blockSequenceStart column ('-' :: ' ' :: afterMark column item)
      (.blockEntry :: nodeKinds false item) item.lastText? where
  starts := ⟨'-', ' ', _, rfl, Scan.EntryMark.item.atToken⟩
  reads {scan kinds l levels n cut rest} comes stays last follows := by
    rw [show '-' :: ' ' :: afterMark column item = ['-', ' '] ++ afterMark column item from rfl,
      cutEnd_append _ _ (read.filled column), List.append_assoc] at comes
    obtain ⟨middle, step, comes⟩ := comes.exists_mark .item stays
    obtain ⟨outer, around⟩ := exists_opened stays levels
    rw [around] at comes ⊢
    obtain ⟨next, steps, comes⟩ := read.afterMark comes last follows
    exact ⟨next, .head step steps, by simpa using comes⟩

theorem entryRead_simpleField {column : Nat} {key : String} (simple : isSimpleKey key = true)
    {value : Data} (read : TokensRead value) :
    EntryRead .blockMappingStart column (simpleKey key ++ ':' :: afterKey column value)
      (.key :: textKind key :: .value :: nodeKinds true value) value.lastText? := by
  refine ⟨?_, fun {scan kinds l levels n cut rest} comes stays last follows => ?_⟩
  · obtain ⟨c, more, shape, token⟩ := Scan.exists_cons_simpleKey key
    obtain ⟨d, rest, next⟩ :=
      List.exists_cons_of_ne_nil (l := more ++ ':' :: afterKey column value) (by simp)
    exact ⟨c, d, rest, by rw [shape, List.cons_append, next], token⟩
  · obtain ⟨c, d, more, shape, blank⟩ := read.blank column
    have split : cutEnd cut (simpleKey key ++ ':' :: afterKey column value) ++ (spaces n ++ rest) =
        simpleKey key ++ ':' :: (cutEnd cut (afterKey column value) ++ (spaces n ++ rest)) := by
      rw [List.append_cons, cutEnd_append cut _ (by simp [shape])]
      simp
    have atBlank :
        atBlankOrEnd (cutEnd cut (afterKey column value) ++ (spaces n ++ rest)) = true := by
      rw [shape, show c :: d :: more = [c] ++ d :: more from rfl,
        cutEnd_append _ _ (List.cons_ne_nil _ _)]
      exact blank
    rw [split] at comes
    obtain ⟨keyed, first, holds, none, noKey, left, behind⟩ := comes.exists_key simple atBlank stays
    obtain ⟨outer, around⟩ := exists_opened stays levels
    rw [around] at holds ⊢
    obtain ⟨next, steps, comes⟩ := read.afterKey holds none noKey left behind last follows
    exact ⟨next, first.trans steps, by simpa using comes⟩

theorem entryRead_markedField {column : Nat} {key : String} {value : Data}
    (read : TokensRead value) :
    EntryRead .blockMappingStart column
      ('?' :: ' ' :: textLine (column + 2) key ++ spaces column ++
        ':' :: ' ' :: afterMark column value)
      (.key :: textKind key :: .value :: nodeKinds false value) value.lastText? where
  starts := ⟨'?', ' ', _, rfl, Scan.EntryMark.key.atToken⟩
  reads {scan kinds l levels n cut rest} comes stays last follows := by
    have shape : '?' :: ' ' :: textLine (column + 2) key ++ spaces column ++
        ':' :: ' ' :: afterMark column value =
        ('?' :: ' ' :: textLine (column + 2) key ++ spaces column ++ [':', ' ']) ++
          afterMark column value := by
      simp
    rw [shape, cutEnd_append _ _ (read.filled column)] at comes
    simp only [List.append_assoc, List.cons_append, List.nil_append] at comes
    obtain ⟨asked, first, comes⟩ := comes.exists_mark .key stays
    obtain ⟨outer, around⟩ := exists_opened stays levels
    rw [around] at comes ⊢
    obtain ⟨named, second, comes⟩ := @Scan.Comes.exists_text _ _ _ _ false _ _ _ _ _ comes
      (fun cut => absurd cut Bool.false_ne_true) (by omega)
      ⟨Nat.le_refl _, Scan.EntryMark.value.atToken _, fun cut => absurd cut Bool.false_ne_true⟩
    obtain ⟨marked, third, comes⟩ := comes.exists_mark .value (Int.le_refl _)
    rw [opened_self, openKinds_self] at comes
    obtain ⟨next, steps, comes⟩ := read.afterMark comes last follows
    exact ⟨next, .head first (.head second (.head third steps)), by simpa using comes⟩

/-! ### Reading collections -/

theorem lastTextOfItems?_eq (items : List Data) :
    Data.lastTextOfItems? items = items.getLast?.bind Data.lastText? := by
  induction items with
  | nil => rfl
  | cons item items ih =>
    cases items with
    | nil => rfl
    | cons other items => exact ih.trans (by rw [List.getLast?_cons_cons])

theorem lastTextOfFields?_eq (fields : List (String × Data)) :
    Data.lastTextOfFields? fields = fields.getLast?.bind (·.2.lastText?) := by
  induction fields with
  | nil => rfl
  | cons field fields ih =>
    cases fields with
    | nil => rfl
    | cons other fields => exact ih.trans (by rw [List.getLast?_cons_cons])

/-- The text of an item in a column. -/
def itemText (column : Nat) (item : Data) : List Char := '-' :: ' ' :: afterMark column item

/-- The text of a field in a column. -/
def fieldText (column : Nat) (field : String × Data) : List Char :=
  if isSimpleKey field.1 then simpleKey field.1 ++ ':' :: afterKey column field.2
  else '?' :: ' ' :: textLine (column + 2) field.1 ++ spaces column ++
    ':' :: ' ' :: afterMark column field.2

theorem itemTexts_eq_map (column : Nat) (items : List Data) :
    itemTexts column items = items.map (itemText column) := by
  induction items with
  | nil => rfl
  | cons item items ih => exact congrArg (itemText column item :: ·) ih

theorem fieldTexts_eq_map (column : Nat) (fields : List (String × Data)) :
    fieldTexts column fields = fields.map (fieldText column) := by
  induction fields with
  | nil => rfl
  | cons field fields ih => exact congrArg (fieldText column field :: ·) ih

theorem itemKinds_eq_flatMap (items : List Data) :
    itemKinds items = items.flatMap fun item => .blockEntry :: nodeKinds false item := by
  induction items with
  | nil => rfl
  | cons item items ih =>
    rw [List.flatMap_cons, ← ih]
    rfl

theorem fieldKinds_eq_flatMap (fields : List (String × Data)) :
    fieldKinds fields = fields.flatMap fun field =>
      .key :: textKind field.1 :: .value :: nodeKinds (isSimpleKey field.1) field.2 := by
  induction fields with
  | nil => rfl
  | cons field fields ih =>
    rw [List.flatMap_cons, ← ih]
    rfl

theorem entryRead_items {column : Nat} {item : Data} {items : List Data}
    (all : ∀ other ∈ item :: items, TokensRead other) :
    EntryRead .blockSequenceStart column (stack column (itemTexts column (item :: items)))
      (itemKinds (item :: items)) (Data.lastTextOfItems? (item :: items)) := by
  rw [itemTexts_eq_map, itemKinds_eq_flatMap, lastTextOfItems?_eq]
  exact entryRead_stack fun other mem => entryRead_item (all other mem)

theorem entryRead_fields {column : Nat} {field : String × Data} {fields : List (String × Data)}
    (all : ∀ other ∈ field :: fields, TokensRead other.2) :
    EntryRead .blockMappingStart column (stack column (fieldTexts column (field :: fields)))
      (fieldKinds (field :: fields)) (Data.lastTextOfFields? (field :: fields)) := by
  rw [fieldTexts_eq_map, fieldKinds_eq_flatMap, lastTextOfFields?_eq]
  refine entryRead_stack fun other mem => ?_
  unfold fieldText
  cases simple : isSimpleKey other.1 with
  | true => exact entryRead_simpleField simple (all other mem)
  | false => exact entryRead_markedField (all other mem)

/-- A block ends before what follows it. -/
theorem EntryRead.exists_block {opening : TokenKind} {column n : Nat} {text : List Char}
    {kinds read : List TokenKind} {last? : Option String} {scan : Scan} {levels : List Int}
    {cut : Bool} {rest : List Char} (entry : EntryRead opening (column + 2) text kinds last?)
    (comes : scan.Comes read (column :: levels) true (column + 2)
      (cutEnd cut text ++ (spaces n ++ rest)))
    (last : cut = true → EndsSolid last?) (follows : Follows cut column n rest) :
    ∃ next, scan.Steps next ∧
      next.Comes (read ++ (opening :: kinds ++ [.blockEnd])) (column :: levels) true n rest := by
  have left := follows.left
  obtain ⟨next, steps, comes⟩ := entry.reads comes (by omega) last
    ⟨by omega, follows.token, follows.last⟩
  have deeper : ¬((column + 2 : Nat) : Int) ≤ column := by omega
  rw [Scan.openKinds, Scan.opened, if_neg deeper, if_neg deeper] at comes
  refine ⟨next, steps, ?_, comes.leads⟩
  simpa using comes.within.close (by omega)

/-- A block below a key starts on the next line. -/
theorem exists_cons_below (m : Nat) {text : List Char} (filled : text ≠ []) :
    ∃ c d more, '\n' :: (spaces m ++ text) = c :: d :: more ∧ isBlankOrBreak c = true := by
  obtain ⟨c, more, shape⟩ :=
    List.exists_cons_of_ne_nil (List.append_ne_nil_of_right_ne_nil (spaces m) filled)
  exact ⟨'\n', c, more, by rw [shape], rfl⟩

theorem comes_below {scan : Scan} {kinds : List TokenKind} {levels : List Int} {cut : Bool}
    {m : Nat} {text after : List Char} (filled : text ≠ []) (holds : scan.Holds kinds levels)
    (none : scan.candidates = [none])
    (left : scan.cursor.rest = cutEnd cut ('\n' :: (spaces m ++ text)) ++ after) :
    scan.Comes kinds levels true m (cutEnd cut text ++ after) := by
  have cursor : scan.cursor =
      ⟨'\n' :: (spaces m ++ (cutEnd cut text ++ after)), scan.cursor.mark⟩ := by
    rw [← List.cons_append, cutEnd_append _ _ filled, List.append_assoc] at left
    rw [← List.cons_append, ← left]
  exact ⟨holds.within _, .line ⟨_, none, fun _ mem => absurd mem (Option.not_mem_none _)⟩ cursor⟩

theorem tokensRead_list {item : Data} {items : List Data}
    (all : ∀ other ∈ item :: items, TokensRead other) : TokensRead (.list (item :: items)) where
  filled column := (@entryRead_items (column + 2) _ _ all).filled
  blank column := exists_cons_below column (@entryRead_items column _ _ all).filled
  afterMark comes last follows := (entryRead_items all).exists_block comes last follows
  afterKey {scan kinds levels column n cut rest} holds none noKey left behind last follows := by
    have entry := @entryRead_items column _ _ all
    have found :=
      entry.reads (comes_below entry.filled holds none left) (Int.le_refl _) last follows
    rwa [opened_self, openKinds_self, List.append_nil] at found

theorem tokensRead_record {field : String × Data} {fields : List (String × Data)}
    (all : ∀ other ∈ field :: fields, TokensRead other.2) :
    TokensRead (.record (field :: fields)) where
  filled column := (@entryRead_fields (column + 2) _ _ all).filled
  blank column := exists_cons_below (column + 2) (@entryRead_fields (column + 2) _ _ all).filled
  afterMark comes last follows := (entryRead_fields all).exists_block comes last follows
  afterKey {scan kinds levels column n cut rest} holds none noKey left behind last follows := by
    have entry := @entryRead_fields (column + 2) _ _ all
    exact entry.exists_block (comes_below entry.filled holds none left) last follows

/-- The tokens of every value are read back. -/
theorem tokensRead (data : Data) : TokensRead data := by
  induction data using Data.induct with
  | null =>
    have plain : PlainWord "null".toList := plainWord_of_plainHolds (by decide) (by decide)
    exact tokensRead_word plain (fun _ => rfl) (fun _ => rfl) fun _ => rfl
  | bool value =>
    have plain : PlainWord (if value then "true" else "false").toList := by
      cases value <;> exact plainWord_of_plainHolds (by decide) (by decide)
    exact tokensRead_word plain (fun _ => by cases value <;> rfl) (fun _ => by cases value <;> rfl)
      fun _ => rfl
  | int value =>
    exact tokensRead_number (plainWord_int value) (fun _ => rfl) (fun _ => rfl) fun _ => rfl
  | float value =>
    exact tokensRead_number (plainWord_float value) (fun _ => rfl) (fun _ => rfl) fun _ => rfl
  | text value => exact tokensRead_text value
  | list items all =>
    cases items with
    | nil => exact tokensRead_brackets .square (fun _ => rfl) (fun _ => rfl) fun _ => rfl
    | cons item items => exact tokensRead_list all
  | record fields all =>
    cases fields with
    | nil => exact tokensRead_brackets .curly (fun _ => rfl) (fun _ => rfl) fun _ => rfl
    | cons field fields => exact tokensRead_record all

end Yaml

end CiTranslate
