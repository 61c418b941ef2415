import Mathlib.Data.List.Forall2
import CiTranslate.Payload.Fence
import CiTranslate.Proofs.Text.Search

/-!
Which text a fenced block holds.

A fence opens a block where it names no language or one that is known (`IsTag`). From there to the
next fence goes the body of the block, whatever stands around it (`fenced?_opening`).

Nothing tells a fence that closes a block from one that opens it. So where a block in an unknown
language is passed over, the fence at its end opens another one, and the text up to the next block
is taken for a body (`body_of_twoBlocks`).
-/

namespace CiTranslate.Payload

/-! ### Words in any case -/

/-- A word as it can be spelled, each letter in some case. -/
def Spelled (word text : List Char) : Prop :=
  List.Forall₂ (fun letter c => Text.isLetter letter c = true) word text

instance (word text : List Char) : Decidable (Spelled word text) :=
  inferInstanceAs (Decidable (List.Forall₂ _ word text))

theorem afterWord?_eq_some_iff {word text rest : List Char} :
    Text.afterWord? word text = some rest ↔
      ∃ spelled, Spelled word spelled ∧ text = spelled ++ rest := by
  induction word generalizing text with
  | nil =>
    simp only [Text.afterWord?, Option.some.injEq]
    exact ⟨fun same => ⟨[], .nil, same⟩, fun ⟨spelled, own, same⟩ => by cases own; exact same⟩
  | cons letter word ih =>
    constructor
    · intro found
      cases text with
      | nil => cases found
      | cons c text =>
        rw [Text.afterWord?] at found
        split at found
        · next own =>
          obtain ⟨spelled, later, rfl⟩ := ih.mp found
          exact ⟨c :: spelled, .cons own later, rfl⟩
        · cases found
    · rintro ⟨spelled, own, rfl⟩
      cases own with
      | cons first later =>
        rw [List.cons_append, Text.afterWord?, if_pos first]
        exact ih.mpr ⟨_, later, rfl⟩

/-- No two letters of ASCII are the same in some case. -/
theorem eq_of_isLetter {a b c : Char} (ha : a.toNat < 128) (hb : b.toNat < 128)
    (first : Text.isLetter a c = true) (second : Text.isLetter b c = true) : a = b := by
  have far {letter : Char} (ascii : letter.toNat < 128)
      (other : c = Char.ofNat 0x17f ∨ c = Char.ofNat 0x212a) : c.toLower ≠ letter := by
    have long : 128 ≤ c.toLower.toNat := by
      rcases other with rfl | rfl
      · decide
      · decide
    rintro rfl
    omega
  have named (n : Nat) (code : c.toNat = n) : c = Char.ofNat n := by
    rw [← code, Char.ofNat_toNat]
  simp only [Text.isLetter, Bool.or_eq_true, Bool.and_eq_true, beq_iff_eq] at first second
  rcases first with (lower | ⟨rfl, code⟩) | ⟨rfl, code⟩
  · rcases second with (same | ⟨rfl, code⟩) | ⟨rfl, code⟩
    · exact lower.symm.trans same
    · exact absurd lower (far ha (.inl (named _ code)))
    · exact absurd lower (far ha (.inr (named _ code)))
  · rcases second with (same | ⟨rfl, -⟩) | ⟨rfl, other⟩
    · exact absurd same (far hb (.inl (named _ code)))
    · rfl
    · rw [code] at other
      cases other
  · rcases second with (same | ⟨rfl, other⟩) | ⟨rfl, -⟩
    · exact absurd same (far hb (.inr (named _ code)))
    · rw [code] at other
      cases other
    · rfl

/-- Of two words that are spelled alike, the shorter one begins the longer one. -/
theorem Spelled.isPrefix {word other text rest : List Char}
    (ascii : ∀ letter ∈ word, letter.toNat < 128) (others : ∀ letter ∈ other, letter.toNat < 128)
    (first : Spelled word text) (second : Spelled other (text ++ rest)) : word <+: other := by
  induction word generalizing other text with
  | nil => exact List.nil_prefix
  | cons letter word ih =>
    cases first with
    | cons own later =>
      cases second with
      | cons same rest =>
        obtain ⟨ha, ascii⟩ := List.forall_mem_cons.mp ascii
        obtain ⟨hb, others⟩ := List.forall_mem_cons.mp others
        rw [eq_of_isLetter ha hb own same]
        exact (List.prefix_cons_inj _).mpr (ih ascii others later rest)

/-! ### Tags -/

/-- What a fence that opens a block can be tagged with: a language, or nothing. -/
def IsTag (tag : List Char) : Prop := tag = [] ∨ ∃ language ∈ fenceLanguages, Spelled language tag

instance (tag : List Char) : Decidable (IsTag tag) :=
  inferInstanceAs (Decidable (tag = [] ∨ ∃ language ∈ fenceLanguages, Spelled language tag))

/-- No language begins like another one. -/
theorem Spelled.eq_nil {language other text rest : List Char} (mem : language ∈ fenceLanguages)
    (hother : other ∈ fenceLanguages) (first : Spelled language text)
    (second : Spelled other (text ++ rest)) : rest = [] := by
  have ascii : ∀ word ∈ fenceLanguages, ∀ letter ∈ word, letter.toNat < 128 := by decide
  have apart : ∀ word ∈ fenceLanguages, ∀ other ∈ fenceLanguages,
      word <+: other → word = other := by
    decide
  obtain rfl := apart language mem other hother
    (first.isPrefix (ascii language mem) (ascii other hother) second)
  have lengths := (List.Forall₂.length_eq first).symm.trans (List.Forall₂.length_eq second)
  rw [List.length_append] at lengths
  exact List.length_eq_zero_iff.mp (by omega)

theorem Spelled.newline_not_mem {language text : List Char} (mem : language ∈ fenceLanguages)
    (own : Spelled language text) : '\n' ∉ text := by
  have other : ∀ word ∈ fenceLanguages, ∀ letter ∈ word, Text.isLetter letter '\n' = false := by
    decide
  replace other := other language mem
  clear mem
  induction own with
  | nil => exact List.not_mem_nil
  | cons first later ih =>
    obtain ⟨differs, other⟩ := List.forall_mem_cons.mp other
    rw [List.mem_cons, not_or]
    refine ⟨?_, ih other⟩
    rintro rfl
    rw [differs] at first
    cases first

/-- The language that a text begins with is found. -/
theorem findSome?_language {language tag : List Char} (mem : language ∈ fenceLanguages)
    (own : Spelled language tag) (rest : List Char) :
    fenceLanguages.findSome? (Text.afterWord? · (tag ++ rest)) = some rest := by
  cases found : fenceLanguages.findSome? (Text.afterWord? · (tag ++ rest)) with
  | none =>
    have missed := List.findSome?_eq_none_iff.mp found language mem
    rw [afterWord?_eq_some_iff.mpr ⟨tag, own, rfl⟩] at missed
    cases missed
  | some after =>
    obtain ⟨other, hother, taken⟩ := List.exists_of_findSome?_eq_some found
    obtain ⟨spelled, second, whole⟩ := afterWord?_eq_some_iff.mp taken
    rcases List.append_eq_append_iff.mp whole with ⟨more, rfl, rfl⟩ | ⟨more, rfl, rfl⟩
    · rw [own.eq_nil mem hother second, List.nil_append]
    · rw [second.eq_nil hother mem own, List.nil_append]

/-- No language is found where the text does not begin with a letter. -/
theorem findSome?_language_eq_none {c : Char}
    (other : ∀ language ∈ fenceLanguages, ∀ letter ∈ language.head?, Text.isLetter letter c = false)
    (text : List Char) : fenceLanguages.findSome? (Text.afterWord? · (c :: text)) = none := by
  refine List.findSome?_eq_none_iff.mpr fun language mem => ?_
  have differs := other language mem
  cases language with
  | nil => exact absurd mem (by decide)
  | cons letter word => rw [Text.afterWord?, differs letter rfl, if_neg Bool.false_ne_true]

/-! ### Lines of fences -/

theorem afterLineEnd?_blanks {blanks : List Char} (blank : ∀ c ∈ blanks, c = ' ' ∨ c = '\t')
    (rest : List Char) : afterLineEnd? (blanks ++ '\n' :: rest) = some rest := by
  have passed :
      (blanks ++ '\n' :: rest).dropWhile (fun c => c == ' ' || c == '\t') = '\n' :: rest :=
    List.dropWhile_append_of_pos fun c mem => by simpa using blank c mem
  rw [afterLineEnd?, passed]
  rfl

theorem afterLineEnd?_eq_none {c : Char} (other : c ∉ [' ', '\t', '\n', '\r']) (text : List Char) :
    afterLineEnd? (c :: text) = none := by
  simp only [List.mem_cons, List.not_mem_nil, or_false, not_or] at other
  obtain ⟨space, tab, newline, carriage⟩ := other
  rw [afterLineEnd?, List.dropWhile_cons_of_neg (by simp [space, tab])]
  split
  · next shape => exact absurd (List.cons.inj shape).1 newline
  · next shape => exact absurd (List.cons.inj shape).1 carriage
  · rfl

/-- The line of a fence that opens a block. -/
structure Opening where
  tag : List Char
  blanks : List Char
  isTag : IsTag tag
  blank : ∀ c ∈ blanks, c = ' ' ∨ c = '\t'

namespace Opening

/-- The line without its end. -/
def text (opening : Opening) : List Char := fence ++ (opening.tag ++ opening.blanks)

theorem afterFence?_text (opening : Opening) (rest : List Char) :
    afterFence? (opening.text ++ '\n' :: rest) = some rest := by
  have ended := afterLineEnd?_blanks opening.blank rest
  have shape : opening.text ++ '\n' :: rest =
      fence ++ (opening.tag ++ (opening.blanks ++ '\n' :: rest)) := by
    simp [text]
  rw [shape, afterFence?, Text.dropPrefix?_append, Option.bind_some]
  rcases opening.isTag with untagged | ⟨language, mem, own⟩
  · have unnamed : fenceLanguages.findSome?
        (Text.afterWord? · (opening.blanks ++ '\n' :: rest)) = none := by
      have other : ∀ c, c = ' ' ∨ c = '\t' ∨ c = '\n' → ∀ language ∈ fenceLanguages,
          ∀ letter ∈ language.head?, Text.isLetter letter c = false := by
        rintro c (rfl | rfl | rfl) <;> decide
      cases blanks : opening.blanks with
      | nil => exact findSome?_language_eq_none (other '\n' (.inr (.inr rfl))) rest
      | cons c blanks =>
        have own := opening.blank c (by simp [blanks])
        exact findSome?_language_eq_none (other c (own.imp_right .inl)) _
    rw [untagged, List.nil_append, unnamed, Option.bind_none]
    exact ended
  · rw [findSome?_language mem own, Option.bind_some, ended]

end Opening

/-- A fence that another backtick follows opens no block. -/
theorem afterFence?_backtick (text : List Char) :
    afterFence? (fence ++ backtick :: text) = none := by
  have unnamed : fenceLanguages.findSome? (Text.afterWord? · (backtick :: text)) = none :=
    findSome?_language_eq_none (by decide) text
  rw [afterFence?, Text.dropPrefix?_append, Option.bind_some, unnamed, Option.bind_none]
  exact afterLineEnd?_eq_none (by decide) text

theorem letter_ne_of_isAlpha {c : Char} (letter : c.isAlpha = true) :
    c ∉ [' ', '\t', '\n', '\r'] ∧ c ≠ backtick := by
  constructor
  · simp only [List.mem_cons, List.not_mem_nil, or_false]
    rintro (rfl | rfl | rfl | rfl) <;> cases letter
  · rintro rfl
    cases letter

/-- A fence that is tagged with another word opens no block. -/
theorem afterFence?_of_not_isTag {tag : List Char} (letters : ∀ c ∈ tag, c.isAlpha = true)
    (unknown : ¬IsTag tag) (text : List Char) :
    afterFence? (fence ++ (tag ++ '\n' :: text)) = none := by
  obtain ⟨c, rest, shape⟩ := List.exists_cons_of_ne_nil fun empty => unknown (.inl empty)
  have line : afterLineEnd? (tag ++ '\n' :: text) = none := by
    rw [shape, List.cons_append]
    exact afterLineEnd?_eq_none (letter_ne_of_isAlpha (letters c (by simp [shape]))).1 _
  have named : (fenceLanguages.findSome? (Text.afterWord? · (tag ++ '\n' :: text))).bind
      afterLineEnd? = none := by
    cases found : fenceLanguages.findSome? (Text.afterWord? · (tag ++ '\n' :: text)) with
    | none => rfl
    | some after =>
      obtain ⟨language, mem, taken⟩ := List.exists_of_findSome?_eq_some found
      obtain ⟨spelled, own, whole⟩ := afterWord?_eq_some_iff.mp taken
      -- The language ends before the tag does: it is not the tag, and does not reach over its line.
      rcases List.append_eq_append_iff.mp whole with ⟨more, rfl, line⟩ | ⟨more, rfl, rfl⟩
      · cases more with
        | nil => exact absurd (.inr ⟨language, mem, by simpa using own⟩) unknown
        | cons d more =>
          obtain ⟨rfl, -⟩ := List.cons.inj line
          exact absurd (List.mem_append_right tag (List.mem_cons_self ..)) (own.newline_not_mem mem)
      · cases more with
        | nil => exact absurd (.inr ⟨language, mem, by simpa using own⟩) unknown
        | cons d more =>
          have letter := letters d (List.mem_append_right spelled (List.mem_cons_self ..))
          exact afterLineEnd?_eq_none (letter_ne_of_isAlpha letter).1 _
  rw [afterFence?, Text.dropPrefix?_append, Option.bind_some, named]
  exact line

/-! ### Bodies -/

/-- The body of a block goes up to the next fence, whatever follows that. -/
theorem untilFence?_append {body : List Char} (absent : ¬fence <:+: body)
    (last : ∀ c ∈ body.getLast?, c ≠ backtick) (rest : List Char) :
    untilFence? (body ++ (fence ++ rest)) = some body := by
  induction body with
  | nil => rfl
  | cons c body ih =>
    have later : untilFence? (body ++ (fence ++ rest)) = some body := by
      refine ih (fun found => absent (List.infix_cons found)) fun d final => last d ?_
      rw [List.getLast?_cons, Option.mem_def.mp final]
      rfl
    have here : fence.isPrefixOf (c :: (body ++ (fence ++ rest))) = false := by
      obtain ⟨start, d, shape⟩ :=
        List.eq_nil_or_concat (c :: body) |>.resolve_left (List.cons_ne_nil c body)
      rw [List.concat_eq_append] at shape
      have foreign : d ∉ fence := by
        have other : d ≠ backtick := last d (by simp [shape])
        simpa [fence] using other
      have begins : start <+: c :: body := ⟨[d], shape.symm⟩
      rw [← List.cons_append, shape, List.append_assoc, List.singleton_append,
        Text.isPrefixOf_append_cons foreign]
      exact Bool.eq_false_iff.mpr fun found =>
        absent ((List.isPrefixOf_iff_prefix.mp found).trans begins).isInfix
    rw [List.cons_append, untilFence?, here, if_neg Bool.false_ne_true, later, Option.map_some]

/-! ### Blocks -/

theorem fenced?_of_afterFence? {text rest body : List Char} (opened : afterFence? text = some rest)
    (closed : untilFence? rest = some body) : fenced? text = some body := by
  cases text with
  | nil => cases opened
  | cons c text => rw [fenced?, opened, Option.bind_some, closed]

theorem fenced?_cons_of_closed {c : Char} {text : List Char}
    (closed : afterFence? (c :: text) = none) : fenced? (c :: text) = fenced? text := by
  rw [fenced?, closed, Option.bind_none]

theorem fenced?_fence_of_closed {text : List Char} (closed : afterFence? (fence ++ text) = none) :
    fenced? (fence ++ text) = fenced? (backtick :: backtick :: text) :=
  fenced?_cons_of_closed closed

/-- A fence that begins before another one reaches into it. -/
theorem exists_of_fence_isPrefix {before rest : List Char} (nonempty : before ≠ [])
    (absent : ¬fence <+: before) (found : fence <+: before ++ (fence ++ rest)) :
    ∃ more, before ++ (fence ++ rest) = fence ++ backtick :: more := by
  obtain ⟨tail, same⟩ := found
  match before with
  | [] => exact absurd rfl nonempty
  | [c] =>
    simp only [fence, List.cons_append, List.nil_append, List.cons.injEq] at same
    obtain ⟨rfl, -⟩ := same
    exact ⟨rest, rfl⟩
  | [c, d] =>
    simp only [fence, List.cons_append, List.nil_append, List.cons.injEq] at same
    obtain ⟨rfl, rfl, -⟩ := same
    exact ⟨backtick :: rest, rfl⟩
  | c :: d :: e :: before =>
    simp only [fence, List.cons_append, List.nil_append, List.cons.injEq] at same
    obtain ⟨rfl, rfl, rfl, -⟩ := same
    exact absurd (List.prefix_append fence before) absent

/-- Before the first fence, no block begins. -/
theorem fenced?_append {before : List Char} (absent : ¬fence <:+: before) (rest : List Char) :
    fenced? (before ++ (fence ++ rest)) = fenced? (fence ++ rest) := by
  induction before with
  | nil => rfl
  | cons c before ih =>
    have closed : afterFence? (c :: (before ++ (fence ++ rest))) = none := by
      by_cases found : fence <+: c :: before ++ (fence ++ rest)
      · obtain ⟨more, shape⟩ := exists_of_fence_isPrefix (List.cons_ne_nil c before)
          (fun start => absent start.isInfix) found
        rw [← List.cons_append, shape, afterFence?_backtick]
      · have none := Bool.eq_false_iff.mpr fun start => found (List.isPrefixOf_iff_prefix.mp start)
        rw [← List.cons_append, afterFence?, Text.dropPrefix?_eq_none none, Option.bind_none]
    rw [List.cons_append, fenced?_cons_of_closed closed,
      ih fun later => absent (List.infix_cons later)]

/-- **A block holds what stands between its fences.** No fence stands before it, nor in its body,
and what follows it does not matter. -/
theorem fenced?_opening {before body : List Char} (absent : ¬fence <:+: before) (opening : Opening)
    (unfenced : ¬fence <:+: body) (last : ∀ c ∈ body.getLast?, c ≠ backtick) (after : List Char) :
    fenced? (before ++ (opening.text ++ '\n' :: (body ++ (fence ++ after)))) = some body := by
  have closed := untilFence?_append unfenced last after
  have shape : opening.text ++ '\n' :: (body ++ (fence ++ after)) =
      fence ++ (opening.tag ++ opening.blanks ++ '\n' :: (body ++ (fence ++ after))) := by
    simp [Opening.text]
  rw [shape, fenced?_append absent, ← shape]
  exact fenced?_of_afterFence? (opening.afterFence?_text _) closed

/-! ### Two blocks -/

/-- Two blocks in a text, the first in any language and the second in YAML. Each fence stands on a
line of its own. -/
structure TwoBlocks where
  before : List Char
  language : List Char
  first : List Char
  between : List Char
  second : List Char
  after : List Char
  letters : ∀ c ∈ language, c.isAlpha = true
  unfenced : ∀ part ∈ [before, first, between, second, after], backtick ∉ part
  lineEnds : ∀ part ∈ [before, first, between, second], ∀ c ∈ part.getLast?, c = '\n'
  lineStart : ∀ c ∈ after.head?, c = '\n'

namespace TwoBlocks

/-- The part of the text after the first block. -/
def rest (blocks : TwoBlocks) : List Char :=
  blocks.between ++
    (fence ++ ("yaml".toList ++ '\n' :: (blocks.second ++ (fence ++ blocks.after))))

def text (blocks : TwoBlocks) : List Char :=
  blocks.before ++
    (fence ++ (blocks.language ++ '\n' :: (blocks.first ++ (fence ++ '\n' :: blocks.rest))))

end TwoBlocks

theorem not_infix_of_count {text : List Char} (few : text.count backtick < 3) :
    ¬fence <:+: text := by
  intro found
  have many : fence.count backtick ≤ text.count backtick := found.sublist.count_le backtick
  have three : fence.count backtick = 3 := by decide
  omega

/-- A block in an unknown language is passed over, but not the fence that closes it. -/
theorem fenced?_of_not_isTag {tag body : List Char} (letters : ∀ c ∈ tag, c.isAlpha = true)
    (unknown : ¬IsTag tag) (absent : backtick ∉ body) (rest : List Char) :
    fenced? (fence ++ (tag ++ '\n' :: (body ++ (fence ++ rest)))) = fenced? (fence ++ rest) := by
  have closed := afterFence?_of_not_isTag letters unknown (body ++ (fence ++ rest))
  have few : (backtick :: backtick :: (tag ++ '\n' :: body)).count backtick < 3 := by
    have language : tag.count backtick = 0 :=
      List.count_eq_zero.mpr fun mem => (letter_ne_of_isAlpha (letters _ mem)).2 rfl
    have plain : body.count backtick = 0 := List.count_eq_zero.mpr absent
    have newline : ('\n' == backtick) = false := by decide
    simp [List.count_cons, language, plain, newline]
  have passed := fenced?_append (not_infix_of_count few) rest
  rw [fenced?_fence_of_closed closed]
  simpa using passed

/-- **A block in an unknown language hides the one after it.** In a language that is known, the
first block is found; otherwise its closing fence opens a block, and what is found is the text
between the two blocks. -/
theorem body_of_twoBlocks (blocks : TwoBlocks) :
    fenced? blocks.text =
      some (if IsTag blocks.language then blocks.first else blocks.between) := by
  have plain {part : List Char} (absent : backtick ∉ part) :
      ¬fence <:+: part ∧ ∀ c ∈ part.getLast?, c ≠ backtick := by
    refine ⟨not_infix_of_count (by rw [List.count_eq_zero.mpr absent]; decide), ?_⟩
    rintro c last rfl
    exact absent (List.mem_of_getLast? last)
  have before := plain (blocks.unfenced blocks.before (by simp))
  have first := plain (blocks.unfenced blocks.first (by simp))
  have between := plain (blocks.unfenced blocks.between (by simp))
  split
  · next tagged =>
    let opening : Opening := ⟨blocks.language, [], tagged, by simp⟩
    have found := fenced?_opening before.1 opening first.1 first.2 ('\n' :: blocks.rest)
    rwa [Opening.text, List.append_nil, List.append_assoc] at found
  · next unknown =>
    let opening : Opening := ⟨[], [], .inl rfl, by simp⟩
    have first := blocks.unfenced blocks.first (by simp)
    have start : ¬fence <:+: [] := not_infix_of_count (by decide)
    calc fenced? blocks.text
        = fenced? (fence ++
            (blocks.language ++ '\n' :: (blocks.first ++ (fence ++ '\n' :: blocks.rest)))) :=
          fenced?_append before.1 _
      _ = fenced? (fence ++ '\n' :: blocks.rest) :=
          fenced?_of_not_isTag blocks.letters unknown first _
      _ = some blocks.between :=
          fenced?_opening start opening between.1 between.2 _

/-- A block in a language that is no tag, then one in YAML. -/
def foreignBlock : TwoBlocks where
  before := []
  language := "python".toList
  first := "x\n".toList
  between := "Then:\n".toList
  second := "a: 1\n".toList
  after := ['\n']
  letters := by decide
  unfenced := by decide
  lineEnds := by decide
  lineStart := by decide

theorem not_body_of_twoBlocks :
    ¬∀ blocks : TwoBlocks,
      (fenced? blocks.text = some blocks.first ∨ fenced? blocks.text = some blocks.second) ∧
        (¬IsTag blocks.language → fenced? blocks.text = some blocks.second) := by
  intro found
  exact absurd (found foreignBlock).1 (by decide)

end CiTranslate.Payload
