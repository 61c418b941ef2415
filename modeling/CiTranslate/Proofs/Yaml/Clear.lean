import CiTranslate.Payload.Fence
import CiTranslate.Proofs.Text.Search
import CiTranslate.Proofs.Yaml.Layout

/-!
The characters of a written document.

All of them may stand in a text. A fence is nothing that a document is built with: it stands in what
is written only if it stands in a text of the document (`clear_writeDocument`).
-/

namespace CiTranslate

namespace Yaml

open Payload (fence backtick)

/-! ### Clear texts -/

/-- A character of the grammar: it may stand in a text, and in no fence. -/
def isNeutral (c : Char) : Bool := isAllowed c && c != backtick

/-- A text of characters that may stand in one, without a fence. -/
structure Clear (text : List Char) : Prop where
  allowed : ∀ c ∈ text, isAllowed c = true
  unfenced : Text.contains fence text = false

/-- A clear text that no fence at its end goes on from. -/
structure Closed (text : List Char) : Prop extends Clear text where
  last : ∀ c ∈ text.getLast?, isNeutral c = true

theorem not_mem_fence {c : Char} (neutral : isNeutral c = true) : c ∉ fence := by
  have other : c ≠ backtick := by
    simp only [isNeutral, Bool.and_eq_true, bne_iff_ne] at neutral
    exact neutral.2
  simp [fence, other]

theorem isAllowed_of_isNeutral {c : Char} (neutral : isNeutral c = true) : isAllowed c = true :=
  (Bool.and_eq_true_iff.mp neutral).1

theorem fence_ne_nil : fence ≠ [] := by decide

theorem closed_of_neutral {text : List Char} (neutral : ∀ c ∈ text, isNeutral c = true) :
    Closed text where
  allowed c mem := isAllowed_of_isNeutral (neutral c mem)
  unfenced := by
    rw [← List.append_nil text, Text.contains_append_of_foreign fence_ne_nil
      fun c mem => not_mem_fence (neutral c mem)]
    rfl
  last c mem := neutral c (List.mem_of_getLast? mem)

theorem Clear.of_infix {text whole : List Char} (clear : Clear whole) (inside : text <:+: whole) :
    Clear text :=
  ⟨fun c mem => clear.allowed c (inside.subset mem), by
    rw [Text.contains_eq_false_iff]
    exact fun found => Text.contains_eq_false_iff.mp clear.unfenced (found.trans inside)⟩

theorem Clear.left {text rest : List Char} (clear : Clear (text ++ rest)) : Clear text :=
  clear.of_infix ⟨[], rest, rfl⟩

theorem Clear.right {text rest : List Char} (clear : Clear (text ++ rest)) : Clear rest :=
  clear.of_infix ⟨text, [], List.append_nil _⟩

theorem closed_nil : Closed [] := closed_of_neutral fun _ mem => absurd mem List.not_mem_nil

/-- A neutral character divides a text. -/
theorem Clear.append_cons {text rest : List Char} {c : Char} (clear : Clear text)
    (neutral : isNeutral c = true) (after : Clear rest) : Clear (text ++ c :: rest) where
  allowed d mem := by
    rcases List.mem_append.mp mem with mem | mem
    · exact clear.allowed d mem
    · rcases List.mem_cons.mp mem with rfl | mem
      · exact isAllowed_of_isNeutral neutral
      · exact after.allowed d mem
  unfenced := by
    rw [Text.contains_append_cons fence_ne_nil (not_mem_fence neutral), clear.unfenced,
      after.unfenced]
    rfl

theorem Closed.append {text rest : List Char} (closed : Closed text) (clear : Clear rest) :
    Clear (text ++ rest) := by
  rcases List.eq_nil_or_concat text with rfl | ⟨start, c, shape⟩
  · exact clear
  · obtain rfl : text = start ++ [c] := by rw [shape, List.concat_eq_append]
    rw [List.append_assoc, List.singleton_append]
    exact closed.left.append_cons (closed.last c (by simp)) clear

theorem Closed.append_closed {text rest : List Char} (closed : Closed text) (after : Closed rest) :
    Closed (text ++ rest) where
  toClear := closed.append after.toClear
  last c mem := by
    rw [List.getLast?_append, Option.mem_def, Option.or_eq_some_iff] at mem
    rcases mem with own | ⟨-, earlier⟩
    · exact after.last c own
    · exact closed.last c earlier

theorem closed_singleton {c : Char} (neutral : isNeutral c = true) : Closed [c] :=
  closed_of_neutral fun _ mem => List.mem_singleton.mp mem ▸ neutral

theorem Clear.append_closed {text rest : List Char} {c : Char} (clear : Clear text)
    (neutral : isNeutral c = true) (after : Closed rest) : Closed (text ++ c :: rest) where
  toClear := clear.append_cons neutral after.toClear
  last d mem := by
    refine ((closed_singleton neutral).append_closed after).last d ?_
    simpa [List.getLast?_append, List.getLast?_cons] using mem

theorem Closed.cons {text : List Char} {c : Char} (closed : Closed text)
    (neutral : isNeutral c = true) : Closed (c :: text) :=
  (closed_singleton neutral).append_closed closed

theorem closed_spaces (n : Nat) : Closed (spaces n) :=
  closed_of_neutral fun c mem => by
    rw [(List.mem_replicate.mp mem).2]
    decide

/-! ### Scalars -/

theorem isAllowed_of_isPrintable {c : Char} (printable : isPrintable c = true) :
    isAllowed c = true := by
  have bound : c.toNat < 0x110000 := by
    have valid := c.valid
    simp only [UInt32.isValidChar, Nat.isValidChar] at valid
    change c.val.toNat < _
    omega
  simp only [isPrintable, isAllowed, Bool.or_eq_true, Bool.and_eq_true, beq_iff_eq,
    decide_eq_true_eq] at printable ⊢
  omega

theorem isNeutral_of_isBreak {c : Char} (line : isBreak c = true) : isNeutral c = true := by
  simp only [isBreak, Bool.or_eq_true, beq_iff_eq] at line
  rcases line with (((rfl | rfl) | rfl) | rfl) | rfl <;> decide

theorem clear_of_needsEscapes {text : List Char} (clean : needsEscapes text = false)
    (unfenced : Text.contains fence text = false) : Clear text := by
  refine ⟨fun c mem => isAllowed_of_isPrintable ?_, unfenced⟩
  simp only [needsEscapes, Bool.or_eq_false_iff, List.any_eq_false] at clean
  simpa using clean.1 c mem

/-- Indentation divides a text, and joins nothing. -/
theorem Clear.indentBreaks (column : Nat) {text : List Char} (clear : Clear text)
    (starts : Bool) : Clear (indentBreaks column starts text) := by
  suffices run : ∀ before, Clear (before ++ text) →
      Clear (before ++ Yaml.indentBreaks column starts text) from run [] clear
  clear clear
  induction text generalizing starts with
  | nil => exact fun before clear => clear
  | cons c text ih =>
    intro before clear
    rw [Yaml.indentBreaks]
    split
    · next line =>
      have later : Clear text := (clear.of_infix ⟨before ++ [c], [], by simp⟩)
      exact clear.left.append_cons (isNeutral_of_isBreak line) (ih true [] later)
    · cases starts with
      | false =>
        have longer := ih false (before ++ [c]) (by simpa using clear)
        simpa using longer
      | true =>
        cases column with
        | zero =>
          have longer := ih false (before ++ [c]) (by simpa using clear)
          simpa [spaces] using longer
        | succ column =>
          have own := ih false [c] clear.right
          exact clear.left.append_cons (by decide) ((closed_spaces column).append own)

/-- A text is clear behind a quote. -/
theorem closed_quoted {quote : Char} (neutral : isNeutral quote = true) {text : List Char}
    (clear : Clear text) : Closed (quote :: text ++ [quote]) :=
  ((closed_singleton neutral).append clear).append_closed neutral closed_nil

theorem isNeutral_of_mem_hexDigits {n width : Nat} {c : Char} (mem : c ∈ hexDigits n width) :
    isNeutral c = true := by
  have digit : ∀ n < 16, isNeutral n.digitChar.toUpper = true := by decide
  have digits (n : Nat) : ∀ d ∈ Nat.toDigits 16 n, isNeutral d.toUpper = true := by
    induction n using Nat.strongRecOn with
    | ind n ih =>
      rw [Nat.toDigits_eq_if (by decide)]
      split
      · next small => simpa using digit n small
      · next large =>
        intro d mem
        rcases List.mem_append.mp mem with mem | mem
        · exact ih (n / 16) (by omega) d mem
        · rw [List.mem_singleton.mp mem]
          exact digit (n % 16) (Nat.mod_lt n (by decide))
  rcases List.mem_append.mp mem with mem | mem
  · rw [(List.mem_replicate.mp mem).2]
    decide
  · obtain ⟨d, digit, rfl⟩ := List.mem_map.mp mem
    exact digits n d digit

theorem isNeutral_of_shortEscape? {c e : Char} (short : shortEscape? c = some e) :
    isNeutral e = true := by
  unfold shortEscape? at short
  split at short
  all_goals first
    | cases short; decide
    | cases short

/-- A character between double quotes stands for itself, or an escape of other characters does. -/
theorem escapeChar_cases (c : Char) :
    isPrintable c = true ∧ escapeChar c = [c] ∨
      c ∉ fence ∧ escapeChar c ≠ [] ∧ ∀ d ∈ escapeChar c, isNeutral d = true := by
  unfold escapeChar
  split
  · next plain =>
    simp only [Bool.and_eq_true] at plain
    exact .inl ⟨plain.1.1.1, rfl⟩
  · next special =>
    have foreign : c ∉ fence := by
      rintro mem
      obtain rfl : c = backtick := by simpa [fence] using mem
      exact special (by decide)
    have escape (mark : Char) (neutral : isNeutral mark = true) (width : Nat) :
        ∀ d ∈ '\\' :: mark :: hexDigits c.toNat width, isNeutral d = true :=
      List.forall_mem_cons.mpr ⟨by decide, List.forall_mem_cons.mpr
        ⟨neutral, fun d mem => isNeutral_of_mem_hexDigits mem⟩⟩
    refine .inr ⟨foreign, ?_⟩
    split
    · next e short =>
      exact ⟨List.cons_ne_nil _ _, List.forall_mem_cons.mpr ⟨by decide, List.forall_mem_cons.mpr
        ⟨isNeutral_of_shortEscape? short, fun _ mem => absurd mem List.not_mem_nil⟩⟩⟩
    · dsimp only
      split
      · exact ⟨List.cons_ne_nil _ _, escape 'x' (by decide) 2⟩
      · split
        · exact ⟨List.cons_ne_nil _ _, escape 'u' (by decide) 4⟩
        · exact ⟨List.cons_ne_nil _ _, escape 'U' (by decide) 8⟩

theorem spells_escapeChar : Text.Spells fence escapeChar where
  kept c mem := by
    rcases escapeChar_cases c with ⟨-, same⟩ | ⟨foreign, -⟩
    · exact same
    · exact absurd mem foreign
  other c foreign := by
    rcases escapeChar_cases c with ⟨-, same⟩ | ⟨-, filled, neutral⟩
    · rw [same]
      exact ⟨List.cons_ne_nil _ _, fun d mem => List.mem_singleton.mp mem ▸ foreign⟩
    · exact ⟨filled, fun d mem => not_mem_fence (neutral d mem)⟩

theorem closed_doubleQuoted {text : List Char} (unfenced : Text.contains fence text = false) :
    Closed (doubleQuoted text) := by
  refine closed_quoted (by decide) ⟨?_, (spells_escapeChar.contains_flatMap text).trans unfenced⟩
  intro d mem
  obtain ⟨c, -, inside⟩ := List.mem_flatMap.mp mem
  rcases escapeChar_cases c with ⟨printable, same⟩ | ⟨-, -, neutral⟩
  · rw [same] at inside
    exact List.mem_singleton.mp inside ▸ isAllowed_of_isPrintable printable
  · exact isAllowed_of_isNeutral (neutral d inside)

theorem spells_doubled : Text.Spells fence doubled where
  kept c mem := by
    obtain rfl : c = backtick := by simpa [fence] using mem
    rfl
  other c foreign := by
    unfold doubled
    split
    · exact ⟨List.cons_ne_nil _ _, by decide⟩
    · exact ⟨List.cons_ne_nil _ _, fun d mem => List.mem_singleton.mp mem ▸ foreign⟩

theorem Clear.flatMap_doubled {text : List Char} (clear : Clear text) :
    Clear (text.flatMap doubled) where
  allowed d mem := by
    obtain ⟨c, own, inside⟩ := List.mem_flatMap.mp mem
    have same : d = c ∨ d = '\'' := by
      unfold doubled at inside
      split at inside
      · exact .inr (by simpa using inside)
      · exact .inl (List.mem_singleton.mp inside)
    rcases same with rfl | rfl
    · exact clear.allowed d own
    · decide
  unfenced := (spells_doubled.contains_flatMap text).trans clear.unfenced

theorem closed_singleQuoted (column : Nat) {text : List Char} (clear : Clear text) :
    Closed (singleQuoted column text) := by
  have body := clear.flatMap_doubled.indentBreaks column false
  rw [singleQuoted_eq]
  refine closed_quoted (by decide) ?_
  unfold singleBody
  split
  · cases column with
    | zero => simpa [spaces] using body
    | succ column => exact body.append_cons (by decide) (closed_spaces column).toClear
  · simpa using body

/-- The header of a literal block, up to its line end. -/
theorem closed_header (text : List Char) :
    Closed ('|' :: (if hidesIndent text then ['2'] else []) ++ chompMark text ++ ['\n']) := by
  have neutral : ∀ (chomping : Chomping) (hides : Bool),
      ∀ c ∈ '|' :: (if hides then ['2'] else []) ++ chomping.sign ++ ['\n'],
        isNeutral c = true := by
    intro chomping hides
    cases chomping <;> cases hides <;> decide
  rw [chompMark_eq]
  exact closed_of_neutral (neutral (chompingOf text) (hidesIndent text))

theorem closed_literalBlock (column : Nat) {text : List Char} (clear : Clear text) :
    Closed (literalBlock column text) := by
  have shape : literalBlock column text =
      ('|' :: (if hidesIndent text then ['2'] else []) ++ chompMark text ++ ['\n']) ++
        (indentBreaks column true text ++ if text.getLast?.any isBreak then [] else ['\n']) := by
    simp [literalBlock]
  rw [shape]
  refine (closed_header text).append_closed ?_
  split
  · next last =>
    obtain ⟨c, found, line⟩ := (Option.any_eq_true _ _).mp last
    obtain ⟨body, rfl⟩ := List.getLast?_eq_some_iff.mp found
    rw [List.append_nil, indentBreaks_append_break _ _ _ line]
    exact (clear.left.indentBreaks column true).append_closed (isNeutral_of_isBreak line) closed_nil
  · exact (clear.indentBreaks column true).append_closed (by decide) closed_nil

theorem needsEscapes_of_styleOf {text : List Char} (style : styleOf text ≠ .double) :
    needsEscapes text = false := by
  unfold styleOf at style
  split at style
  · split at style
    · next holds => simpa [literalHolds] using (Bool.and_eq_true_iff.mp holds).1
    · exact absurd rfl style
  · split at style
    · next plain => simp_all [plainHolds]
    · split at style
      · next holds => simpa [singleHolds] using (Bool.and_eq_true_iff.mp holds).1
      · exact absurd rfl style

theorem closed_textLine (column : Nat) {text : String}
    (unfenced : Text.contains fence text.toList = false) : Closed (textLine column text) := by
  have clean := @needsEscapes_of_styleOf text.toList
  unfold textLine
  dsimp only
  cases style : styleOf text.toList with
  | plain =>
    have clear := clear_of_needsEscapes (clean (by simp [style])) unfenced
    exact clear.append_closed (by decide) closed_nil
  | single =>
    have clear := clear_of_needsEscapes (clean (by simp [style])) unfenced
    exact (closed_singleQuoted column clear).append_closed (closed_singleton (by decide))
  | double => exact (closed_doubleQuoted unfenced).append_closed (closed_singleton (by decide))
  | literal =>
    exact closed_literalBlock column (clear_of_needsEscapes (clean (by simp [style])) unfenced)

theorem clear_simpleKey {key : String} (unfenced : Text.contains fence key.toList = false) :
    Clear (simpleKey key) := by
  have clean := @needsEscapes_of_styleOf key.toList
  unfold simpleKey
  dsimp only
  cases style : styleOf key.toList with
  | plain => exact clear_of_needsEscapes (clean (by simp [style])) unfenced
  | single =>
    exact (closed_singleQuoted 0 (clear_of_needsEscapes (clean (by simp [style])) unfenced)).toClear
  | double => exact (closed_doubleQuoted unfenced).toClear
  | literal => exact (closed_doubleQuoted unfenced).toClear

/-! ### Collections -/

theorem closed_stack (column : Nat) {entries : List (List Char)}
    (closed : ∀ entry ∈ entries, Closed entry) : Closed (stack column entries) := by
  cases entries with
  | nil => exact closed_nil
  | cons first entries =>
    obtain ⟨own, others⟩ := List.forall_mem_cons.mp closed
    refine own.append_closed ?_
    clear own closed
    induction entries with
    | nil => exact closed_nil
    | cons entry entries ih =>
      obtain ⟨own, others⟩ := List.forall_mem_cons.mp others
      exact ((closed_spaces column).append_closed own).append_closed (ih others)

/-- What is written for a value is clear, behind the mark of an entry and behind a key. -/
structure ClosedValue (data : Data) : Prop where
  afterMark (column : Nat) : Closed (afterMark column data)
  afterKey (column : Nat) : Closed (afterKey column data)

theorem closedValue_of_neutral {data : Data} {line : List Char}
    (neutral : ∀ c ∈ line, isNeutral c = true)
    (mark : ∀ column, Yaml.afterMark column data = line)
    (key : ∀ column, Yaml.afterKey column data = ' ' :: line) : ClosedValue data where
  afterMark column := mark column ▸ closed_of_neutral neutral
  afterKey column := key column ▸ closed_of_neutral (List.forall_mem_cons.mpr ⟨by decide, neutral⟩)

theorem isNeutral_of_isDigit {c : Char} (digit : c.isDigit = true) : isNeutral c = true := by
  obtain ⟨low, high⟩ := Char.isDigit_iff_toNat.mp digit
  change 48 ≤ c.toNat at low
  change c.toNat ≤ 57 at high
  have other : c ≠ backtick := by
    rintro rfl
    cases digit
  simp only [isNeutral, isAllowed, Bool.and_eq_true, Bool.or_eq_true, beq_iff_eq, bne_iff_ne,
    decide_eq_true_eq]
  exact ⟨by omega, other⟩

theorem closedValue_number {data : Data} {word : String}
    (neutral : ∀ c ∈ word.toList, isNeutral c = true)
    (mark : ∀ column, Yaml.afterMark column data = (word ++ "\n").toList)
    (key : ∀ column, Yaml.afterKey column data = (" " ++ word ++ "\n").toList) :
    ClosedValue data := by
  have line : ∀ c ∈ word.toList ++ ['\n'], isNeutral c = true :=
    List.forall_mem_append.mpr ⟨neutral, by decide⟩
  refine closedValue_of_neutral line (fun column => ?_) fun column => ?_
  · rw [mark, String.toList_append]
    rfl
  · rw [key, String.toList_append, String.toList_append]
    rfl

theorem closed_itemText (column : Nat) {item : Data} (closed : ClosedValue item) :
    Closed (itemText column item) :=
  (closed_of_neutral (by decide : ∀ c ∈ ['-', ' '], isNeutral c = true)).append_closed
    (closed.afterMark column)

theorem closed_fieldText (column : Nat) {field : String × Data}
    (unfenced : Text.contains fence field.1.toList = false) (closed : ClosedValue field.2) :
    Closed (fieldText column field) := by
  unfold fieldText
  split
  · exact (clear_simpleKey unfenced).append_closed (by decide) (closed.afterKey column)
  · have asked : Closed ['?', ' '] := closed_of_neutral (by decide)
    have marked : Closed [':', ' '] := closed_of_neutral (by decide)
    have key := asked.append_closed (closed_textLine (column + 2) unfenced)
    exact (key.append_closed (closed_spaces column)).append_closed
      (marked.append_closed (closed.afterMark column))

theorem closed_itemTexts (column : Nat) {items : List Data}
    (closed : ∀ item ∈ items, ClosedValue item) :
    Closed (stack column (itemTexts column items)) := by
  rw [itemTexts_eq_map]
  refine closed_stack column fun entry mem => ?_
  obtain ⟨item, own, rfl⟩ := List.mem_map.mp mem
  exact closed_itemText column (closed item own)

theorem closed_fieldTexts (column : Nat) {fields : List (String × Data)}
    (unfenced : ∀ field ∈ fields, Text.contains fence field.1.toList = false)
    (closed : ∀ field ∈ fields, ClosedValue field.2) :
    Closed (stack column (fieldTexts column fields)) := by
  rw [fieldTexts_eq_map]
  refine closed_stack column fun entry mem => ?_
  obtain ⟨field, own, rfl⟩ := List.mem_map.mp mem
  exact closed_fieldText column (unfenced field own) (closed field own)

theorem closedValue {data : Data}
    (unfenced : ∀ text ∈ data.allTexts, Text.contains fence text.toList = false) :
    ClosedValue data := by
  have line {data : Data} (word : String) (neutral : ∀ c ∈ word.toList, isNeutral c = true)
      (mark : ∀ column, Yaml.afterMark column data = word.toList)
      (key : ∀ column, Yaml.afterKey column data = ' ' :: word.toList) : ClosedValue data :=
    closedValue_of_neutral neutral mark key
  induction data using Data.induct with
  | null => exact line "null\n" (by decide) (fun _ => rfl) fun _ => rfl
  | bool value =>
    cases value with
    | false => exact line "false\n" (by decide) (fun _ => rfl) fun _ => rfl
    | true => exact line "true\n" (by decide) (fun _ => rfl) fun _ => rfl
  | int value =>
    have neutral :=
      Decimal.forall_mem_toString_int (fun _ => isNeutral_of_isDigit) (by decide) value
    exact closedValue_number neutral (fun _ => rfl) fun _ => rfl
  | float value =>
    have neutral := Decimal.forall_mem_write doubles (fun _ => isNeutral_of_isDigit) (by decide)
      (by decide) value
    exact closedValue_number neutral (fun _ => rfl) fun _ => rfl
  | text value =>
    have own := unfenced value (List.mem_singleton_self value)
    exact ⟨fun column => closed_textLine (column + 2) own,
      fun column => (closed_textLine (column + 2) own).cons (by decide)⟩
  | list items all =>
    cases items with
    | nil => exact line "[]\n" (by decide) (fun _ => rfl) fun _ => rfl
    | cons item items =>
      have each : ∀ other ∈ item :: items, ClosedValue other := fun other mem =>
        all other mem fun text inside => unfenced text (Data.mem_allTexts_of_item mem inside)
      exact ⟨fun column => closed_itemTexts (column + 2) each, fun column =>
        ((closed_spaces column).append_closed (closed_itemTexts column each)).cons (by decide)⟩
  | record fields all =>
    cases fields with
    | nil => exact line "\x7b\x7d\n" (by decide) (fun _ => rfl) fun _ => rfl
    | cons field fields =>
      have below (column : Nat) : Closed (stack column (fieldTexts column (field :: fields))) :=
        closed_fieldTexts column
          (fun other mem => unfenced _ (Data.mem_allTexts_of_field mem (List.mem_cons_self ..)))
          fun other mem => all other mem fun text inside =>
            unfenced text (Data.mem_allTexts_of_field mem (List.mem_cons_of_mem _ inside))
      exact ⟨fun column => below (column + 2), fun column =>
        ((closed_spaces (column + 2)).append_closed (below (column + 2))).cons (by decide)⟩

/-- **What is written for a document is clear.** -/
theorem clear_writeDocument {data : Data}
    (unfenced : ∀ text ∈ data.allTexts, Text.contains fence text.toList = false) :
    Clear (writeDocument data) := by
  have value := closedValue unfenced
  cases data with
  | list items =>
    cases items with
    | nil => exact (value.afterMark 0).toClear
    | cons item items =>
      exact (closed_itemTexts 0 fun other mem => closedValue fun text inside =>
        unfenced text (Data.mem_allTexts_of_item mem inside)).toClear
  | record fields =>
    cases fields with
    | nil => exact (value.afterMark 0).toClear
    | cons field fields =>
      exact (closed_fieldTexts 0
        (fun other mem => unfenced _ (Data.mem_allTexts_of_field mem (List.mem_cons_self ..)))
        fun other mem => closedValue fun text inside =>
          unfenced text (Data.mem_allTexts_of_field mem (List.mem_cons_of_mem _ inside))).toClear
  | _ => exact (value.afterMark 0).toClear

/-! ### Line ends -/

/-- A value that does not end with a line end of its last text ends with the one of its last
line. -/
structure EndsLine (data : Data) : Prop where
  afterMark (column : Nat) : (afterMark column data).getLast? = some '\n'
  afterKey (column : Nat) : (afterKey column data).getLast? = some '\n'

theorem getLast?_cons_of_some {c d : Char} {text : List Char} (last : text.getLast? = some d) :
    (c :: text).getLast? = some d := by
  rw [List.getLast?_cons, last]
  rfl

theorem getLast?_append_of_some {d : Char} (start : List Char) {text : List Char}
    (last : text.getLast? = some d) : (start ++ text).getLast? = some d := by
  rw [List.getLast?_append, last]
  rfl

theorem getLast?_stack {column : Nat} {entries : List (List Char)} {last : List Char} {c : Char}
    (found : entries.getLast? = some last) (ends : last.getLast? = some c) :
    (stack column entries).getLast? = some c := by
  obtain ⟨before, rfl⟩ := List.getLast?_eq_some_iff.mp found
  cases before with
  | nil => simpa [stack] using ends
  | cons first before =>
    simp only [List.cons_append, stack, List.flatMap_append, List.flatMap_singleton]
    exact getLast?_append_of_some _ (getLast?_append_of_some _ (getLast?_append_of_some _ ends))

theorem getLast?_textLine (column : Nat) {text : String} (ends : EndsSolid (some text)) :
    (textLine column text).getLast? = some '\n' := by
  unfold textLine
  dsimp only
  cases style : styleOf text.toList with
  | plain => exact List.getLast?_concat
  | single => exact List.getLast?_concat
  | double => exact List.getLast?_concat
  | literal =>
    have ended : text.toList.getLast?.any isBreak = false := by
      rw [Option.any_eq_false]
      exact fun c mem => by simp [ends text rfl style c mem]
    rw [literalBlock, ended]
    exact List.getLast?_concat

theorem getLast?_itemTexts (column : Nat) {item : Data} {items : List Data}
    (ends : EndsSolid (Data.lastTextOfItems? (item :: items)))
    (lines : ∀ other ∈ item :: items, EndsSolid other.lastText? → EndsLine other) :
    (stack column (itemTexts column (item :: items))).getLast? = some '\n' := by
  obtain ⟨last, found⟩ : ∃ last, (item :: items).getLast? = some last := ⟨_, List.getLast?_cons⟩
  rw [lastTextOfItems?_eq, found] at ends
  have line := lines last (List.mem_of_getLast? found) ends
  have entry : ((item :: items).map (itemText column)).getLast? = some (itemText column last) := by
    rw [List.getLast?_map, found]
    rfl
  rw [itemTexts_eq_map]
  refine getLast?_stack entry ?_
  exact getLast?_append_of_some ['-', ' '] (line.afterMark column)

theorem getLast?_fieldTexts (column : Nat) {field : String × Data} {fields : List (String × Data)}
    (ends : EndsSolid (Data.lastTextOfFields? (field :: fields)))
    (lines : ∀ other ∈ field :: fields, EndsSolid other.2.lastText? → EndsLine other.2) :
    (stack column (fieldTexts column (field :: fields))).getLast? = some '\n' := by
  obtain ⟨last, found⟩ : ∃ last, (field :: fields).getLast? = some last := ⟨_, List.getLast?_cons⟩
  rw [lastTextOfFields?_eq, found] at ends
  have line := lines last (List.mem_of_getLast? found) ends
  have entry :
      ((field :: fields).map (fieldText column)).getLast? = some (fieldText column last) := by
    rw [List.getLast?_map, found]
    rfl
  rw [fieldTexts_eq_map]
  refine getLast?_stack entry ?_
  unfold fieldText
  split
  · exact getLast?_append_of_some _ (getLast?_append_of_some [':'] (line.afterKey column))
  · exact getLast?_append_of_some _ (getLast?_append_of_some [':', ' '] (line.afterMark column))

theorem endsLine {data : Data} (ends : EndsSolid data.lastText?) : EndsLine data := by
  have word {data : Data} (word : String)
      (mark : ∀ column, Yaml.afterMark column data = (word ++ "\n").toList)
      (key : ∀ column, Yaml.afterKey column data = (" " ++ word ++ "\n").toList) : EndsLine data :=
    ⟨fun column => by rw [mark, String.toList_append]; exact List.getLast?_concat,
      fun column => by rw [key, String.toList_append]; exact List.getLast?_concat⟩
  induction data using Data.induct with
  | null => exact word "null" (fun _ => rfl) fun _ => rfl
  | bool value =>
    cases value with
    | false => exact word "false" (fun _ => rfl) fun _ => rfl
    | true => exact word "true" (fun _ => rfl) fun _ => rfl
  | int value => exact word (toString value) (fun _ => rfl) fun _ => rfl
  | float value => exact word (doubles.write value) (fun _ => rfl) fun _ => rfl
  | text value =>
    have line (column : Nat) := getLast?_textLine (column + 2) ends
    exact ⟨line, fun column => getLast?_cons_of_some (line column)⟩
  | list items all =>
    cases items with
    | nil => exact word "[]" (fun _ => rfl) fun _ => rfl
    | cons item items =>
      have below (column : Nat) := getLast?_itemTexts column ends all
      exact ⟨fun column => below (column + 2),
        fun column => getLast?_cons_of_some (getLast?_append_of_some _ (below column))⟩
  | record fields all =>
    cases fields with
    | nil => exact word "\x7b\x7d" (fun _ => rfl) fun _ => rfl
    | cons field fields =>
      have below (column : Nat) := getLast?_fieldTexts (column + 2) ends all
      exact ⟨below, fun column => getLast?_cons_of_some (getLast?_append_of_some _ (below column))⟩

end Yaml

end CiTranslate
