import CiTranslate.Proofs.Groovy.DebugCall

/-!
What cleaning takes out of scripts of any form.

A script is put together from segments: code, literals, comments and debug calls, each of which may
hold what the others begin with. Where no two neighbours can be taken for one, cleaning drops
exactly the comments and the debug calls (`withoutNoise_segments`).

A segment other than code is one passage of the script (`Segment.passage_text`), and code is passed
character by character (`withoutNoiseFrom_nameless`). Where a segment ends depends only on the first
character after it (`Segment.Stops`), and whether it can begin only on the last one before it
(`Segment.Begins`).
-/

namespace CiTranslate.Groovy

-- Only the characters of the text are checked, not all that there are.
instance decidableForallMemText (text : List Char) (p : Char → Prop) [DecidablePred p] :
    Decidable (∀ c ∈ text, p c) :=
  List.decidableBAll p text

instance decidableForallMemLast (last : Option Char) (p : Char → Prop) [DecidablePred p] :
    Decidable (∀ c ∈ last, p c) :=
  Option.decidableForallMem last

/-! ### Segments -/

/-- Code without quotes, slashes and the names of debug functions. -/
structure Code where
  text : List Char
  -- Over empty code, two literals would meet.
  nonempty : text ≠ []
  plain : ∀ c ∈ text, isQuote c = false ∧ c ≠ '/'
  nameless : ∀ name ∈ debugNames, ¬name <:+: text

/-- A segment of a script. -/
inductive Segment where
  | code (code : Code)
  | literal (literal : Literal)
  | blockComment (text : List Char) (inside : ¬['*', '/'] <:+: text)
  | lineComment (text : List Char) (oneLine : '\n' ∉ text)
  | debugCall (call : DebugCall)

namespace Segment

inductive Kind where
  | code
  | literal
  | blockComment
  | lineComment
  | debugCall
  deriving DecidableEq, Repr

def kind : Segment → Kind
  | .code _ => .code
  | .literal _ => .literal
  | .blockComment .. => .blockComment
  | .lineComment .. => .lineComment
  | .debugCall _ => .debugCall

/-- The segment as it stands in the script. -/
def text : Segment → List Char
  | .code own => own.text
  | .literal own => own.text
  | .blockComment text _ => '/' :: '*' :: (text ++ ['*', '/'])
  | .lineComment text _ => '/' :: '/' :: text
  | .debugCall call => call.text

/-- Whether cleaning keeps the segment. -/
def isKept (segment : Segment) : Bool := segment.kind == .code || segment.kind == .literal

/-- Whether two segments can stand next to each other without being taken for others. -/
structure Precedes (first next : Segment) : Prop where
  codes : ¬(first.kind = .code ∧ next.kind = .code)
  literals : ¬(first.kind = .literal ∧ next.kind = .literal)
  /-- A comment goes up to the end of its line. -/
  lineEnd : first.kind = .lineComment → next.text.head? = some '\n'
  /-- Two slashes after a colon are a part of an address. -/
  address : next.kind = .lineComment → first.text.getLast? ≠ some ':'
  /-- A debug call is no end of another name. -/
  name : next.kind = .debugCall →
    ∀ c ∈ first.text.getLast?, c.isAlphanum = false ∧ c ≠ '_' ∧ c ≠ '.'

instance (first next : Segment) : Decidable (first.Precedes next) :=
  decidable_of_iff
    (¬(first.kind = .code ∧ next.kind = .code) ∧ ¬(first.kind = .literal ∧ next.kind = .literal) ∧
      (first.kind = .lineComment → next.text.head? = some '\n') ∧
      (next.kind = .lineComment → first.text.getLast? ≠ some ':') ∧
      (next.kind = .debugCall →
        ∀ c ∈ first.text.getLast?, c.isAlphanum = false ∧ c ≠ '_' ∧ c ≠ '.'))
    ⟨fun h => ⟨h.1, h.2.1, h.2.2.1, h.2.2.2.1, h.2.2.2.2⟩,
      fun h => ⟨h.codes, h.literals, h.lineEnd, h.address, h.name⟩⟩

/-! ### The ends of segments -/

/-- Whether a segment can begin after a character. -/
structure Begins (previous : Option Char) (segment : Segment) : Prop where
  address : segment.kind = .lineComment → previous ≠ some ':'
  name : segment.kind = .debugCall → startsName previous = true

/-- Whether a segment ends where a text begins. -/
structure Stops (rest : List Char) (segment : Segment) : Prop where
  code : segment.kind = .code → ∀ name ∈ debugNames, ∀ c ∈ rest.head?, c ∉ name.tail
  literal : segment.kind = .literal → ∀ c ∈ rest.head?, isQuote c = false
  lineEnd : segment.kind = .lineComment → ∀ c ∈ rest.head?, c = '\n'

/-- With what a segment can begin. -/
theorem exists_text_eq_cons (segment : Segment) :
    ∃ c rest, segment.text = c :: rest ∧
      (segment.kind ≠ .code → ∀ name ∈ debugNames, c ∉ name.tail) ∧
      (segment.kind ≠ .literal → isQuote c = false) := by
  have foreign : ∀ c ∈ ['\'', '"', '/', 'p', 'e'], ∀ name ∈ debugNames, c ∉ name.tail := by decide
  cases segment with
  | code own =>
    obtain ⟨c, rest, shape⟩ := List.exists_cons_of_ne_nil own.nonempty
    have plain := own.plain c (shape ▸ List.mem_cons_self ..)
    exact ⟨c, rest, shape, fun other => absurd rfl other, fun _ => plain.1⟩
  | literal own =>
    obtain ⟨rest, shape⟩ := own.exists_text_eq_cons
    have mark : own.quote = '\'' ∨ own.quote = '"' := by simpa [isQuote] using own.isQuote_quote
    refine ⟨own.quote, rest, shape, fun _ => foreign own.quote ?_, fun other => absurd rfl other⟩
    rcases mark with same | same
    · simp [same]
    · simp [same]
  | blockComment text inside =>
    exact ⟨'/', _, rfl, fun _ => foreign '/' (by simp), fun _ => rfl⟩
  | lineComment text oneLine =>
    exact ⟨'/', _, rfl, fun _ => foreign '/' (by simp), fun _ => rfl⟩
  | debugCall call =>
    obtain ⟨c, rest, shape, initial⟩ := call.exists_text_eq_cons
    refine ⟨c, rest, shape, fun _ => foreign c ?_, fun _ => (plain_of_initial initial).1⟩
    rcases initial with rfl | rfl
    · simp
    · simp

theorem text_ne_nil (segment : Segment) : segment.text ≠ [] := by
  obtain ⟨c, rest, shape, -⟩ := segment.exists_text_eq_cons
  rw [shape]
  exact List.cons_ne_nil c rest

theorem Precedes.begins {first next : Segment} (precedes : first.Precedes next) :
    next.Begins first.text.getLast? where
  address := precedes.address
  name own := by
    have free := precedes.name own
    cases last : first.text.getLast? with
    | none => rfl
    | some c =>
      obtain ⟨alphanumeric, line, dot⟩ := free c last
      simp [startsName, alphanumeric, line, dot]

theorem Precedes.stops {first next : Segment} (precedes : first.Precedes next) (rest : List Char) :
    first.Stops (next.text ++ rest) := by
  obtain ⟨c, later, shape, foreign, unquoted⟩ := next.exists_text_eq_cons
  have head : (next.text ++ rest).head? = some c := by rw [shape]; rfl
  refine ⟨?_, ?_, ?_⟩
  · intro own name mem d start
    obtain rfl := Option.some.inj (head.symm.trans start)
    exact foreign (fun same => precedes.codes ⟨own, same⟩) name mem
  · intro own d start
    obtain rfl := Option.some.inj (head.symm.trans start)
    exact unquoted fun same => precedes.literals ⟨own, same⟩
  · intro own d start
    have lineEnd := precedes.lineEnd own
    rw [shape] at lineEnd
    obtain rfl := Option.some.inj (head.symm.trans start)
    exact Option.some.inj lineEnd

theorem stops_nil (segment : Segment) : segment.Stops [] where
  code _ _ _ _ first := nomatch first
  literal _ _ first := nomatch first
  lineEnd _ _ first := nomatch first

end Segment

/-! ### Passages -/

/-- Code is kept as long as no debug name begins in it, also where its end could begin one. -/
theorem withoutNoiseFrom_nameless {code : List Char}
    (plain : ∀ c ∈ code, isQuote c = false ∧ c ≠ '/')
    (nameless : ∀ name ∈ debugNames, ¬name <:+: code) {rest : List Char}
    (next : ∀ name ∈ debugNames, ∀ c ∈ rest.head?, c ∉ name.tail) (previous : Option Char) :
    withoutNoiseFrom previous true 0 (code ++ rest) =
      code ++ withoutNoiseFrom (code.getLast?.or previous) true 0 rest := by
  induction code generalizing previous with
  | nil => rfl
  | cons c code ih =>
    obtain ⟨⟨quote, slash⟩, plain⟩ := List.forall_mem_cons.mp plain
    have later : ∀ name ∈ debugNames, ¬name <:+: code :=
      fun name mem found => nameless name mem (List.infix_cons found)
    have absent : ∀ name ∈ debugNames, name.isPrefixOf (c :: (code ++ rest)) = false := by
      intro name mem
      have here : ¬name <+: c :: code := fun found => nameless name mem found.isInfix
      exact Text.isPrefixOf_append_eq_false (List.cons_ne_nil c code) here (next name mem)
    have first := passage_of_nameless quote slash absent previous
    rw [List.cons_append, withoutNoiseFrom_cons_of_kept first, ih plain later,
      Text.getLast?_cons_or]
    rfl

/-- A comment ends at the first end mark. -/
theorem commentLength_append {text : List Char} (inside : ¬['*', '/'] <:+: text)
    (rest : List Char) : commentLength (text ++ '*' :: '/' :: rest) = text.length + 2 := by
  induction text with
  | nil => rfl
  | cons c text ih =>
    have later : ¬['*', '/'] <:+: text := fun found => inside (List.infix_cons found)
    rw [List.cons_append, commentLength, ih later, List.length_cons, Nat.add_right_comm]
    rintro more star slash
    refine inside ?_
    cases text with
    | nil => cases slash
    | cons d text =>
      obtain ⟨rfl, -⟩ := List.cons.inj slash
      subst star
      exact ⟨[], text, rfl⟩

theorem passage_blockComment {text : List Char} (inside : ¬['*', '/'] <:+: text)
    (previous : Option Char) (rest : List Char) :
    passage previous ('/' :: '*' :: (text ++ ['*', '/']) ++ rest) =
      (false, ('/' :: '*' :: (text ++ ['*', '/'])).length) := by
  have length := commentLength_append inside rest
  have shape : text ++ ['*', '/'] ++ rest = text ++ '*' :: '/' :: rest := by simp
  rw [List.cons_append, List.cons_append, shape, passage,
    literalLength?_of_not_isQuote (by decide), noiseLength?, length]
  simp

/-- A segment other than code is a passage, from its first character to its last. -/
theorem Segment.passage_text {segment : Segment} (other : segment.kind ≠ .code)
    {previous : Option Char} (begins : segment.Begins previous) {rest : List Char}
    (stops : segment.Stops rest) :
    passage previous (segment.text ++ rest) = (segment.isKept, segment.text.length) := by
  cases segment with
  | code own => exact absurd rfl other
  | literal own =>
    have next := own.head?_ne (stops.literal rfl)
    rw [Segment.text, passage, literalLength?_text own next]
    rfl
  | blockComment text inside => exact passage_blockComment inside previous rest
  | lineComment text oneLine =>
    exact passage_lineComment (begins.address rfl) oneLine (stops.lineEnd rfl)
  | debugCall call =>
    have length := debugLength?_text (begins.name rfl) call rest
    obtain ⟨c, later, shape, initial⟩ := call.exists_text_eq_cons
    obtain ⟨unquoted, slash⟩ := plain_of_initial initial
    rw [shape, List.cons_append] at length
    rw [Segment.text, shape, List.cons_append, passage, literalLength?_of_not_isQuote unquoted,
      noiseLength?_of_ne slash, length]
    rfl

/-- One segment is kept or dropped as a whole. -/
theorem Segment.withoutNoiseFrom_text {segment : Segment} {previous : Option Char}
    (begins : segment.Begins previous) {rest : List Char} (stops : segment.Stops rest) :
    withoutNoiseFrom previous true 0 (segment.text ++ rest) =
      (if segment.isKept then segment.text else []) ++
        withoutNoiseFrom segment.text.getLast? true 0 rest := by
  have last : segment.text.getLast?.or previous = segment.text.getLast? := by
    rw [List.getLast?_eq_some_getLast segment.text_ne_nil]
    rfl
  by_cases code : segment.kind = .code
  · cases segment with
    | code own =>
      have last : own.text.getLast?.or previous = own.text.getLast? := last
      rw [Segment.text, withoutNoiseFrom_nameless own.plain own.nameless (stops.code rfl), last]
      rfl
    | literal own => cases code
    | blockComment text inside => cases code
    | lineComment text oneLine => cases code
    | debugCall call => cases code
  · have whole := Segment.passage_text code begins stops
    cases kept : segment.isKept with
    | true =>
      rw [kept] at whole
      rw [withoutNoiseFrom_of_kept segment.text_ne_nil whole, last, if_pos rfl]
    | false =>
      rw [kept] at whole
      rw [withoutNoiseFrom_of_dropped segment.text_ne_nil whole, last,
        if_neg Bool.false_ne_true, List.nil_append]

theorem withoutNoiseFrom_segments {segments : List Segment}
    (chain : segments.IsChain Segment.Precedes) {previous : Option Char}
    (begins : ∀ first ∈ segments.head?, first.Begins previous) :
    withoutNoiseFrom previous true 0 (segments.flatMap Segment.text) =
      (segments.filter Segment.isKept).flatMap Segment.text := by
  induction segments generalizing previous with
  | nil => rfl
  | cons segment segments ih =>
    have own : segment.Begins previous := begins segment rfl
    have stops : segment.Stops (segments.flatMap Segment.text) := by
      cases segments with
      | nil => exact segment.stops_nil
      | cons next segments =>
        rw [List.flatMap_cons]
        exact (List.isChain_cons_cons.mp chain).1.stops _
    have later : ∀ first ∈ segments.head?, first.Begins segment.text.getLast? := by
      cases segments with
      | nil => exact fun _ mem => nomatch mem
      | cons next segments =>
        intro first mem
        obtain rfl := Option.some.inj mem
        exact (List.isChain_cons_cons.mp chain).1.begins
    rw [List.flatMap_cons, Segment.withoutNoiseFrom_text own stops, ih chain.tail later]
    cases kept : segment.isKept with
    | true => rw [List.filter_cons_of_pos kept, List.flatMap_cons, if_pos rfl]
    | false =>
      rw [List.filter_cons_of_neg (by simp [kept]), if_neg Bool.false_ne_true, List.nil_append]

/-- **Cleaning removes exactly comments and debug calls.** Of segments that stand next to each other
without being taken for others, the code and the literals are left, in their order. -/
theorem withoutNoise_segments {segments : List Segment}
    (chain : segments.IsChain Segment.Precedes) :
    withoutNoise (segments.flatMap Segment.text) =
      (segments.filter Segment.isKept).flatMap Segment.text := by
  apply withoutNoiseFrom_segments chain
  intro first _
  exact ⟨fun _ => nofun, fun _ => rfl⟩

/-- Signs without escapes. -/
def plainSigns (text : String) : List Sign := text.toList.map .plain

/-- A script of which nearly every segment holds what others begin with. -/
def noisyScript : List Segment :=
  [.code ⟨"node \x7b ".toList, by decide, by decide, by decide⟩,
    .debugCall ⟨"println".toList, [' '],
      [.code "f(".toList (by decide) (by decide),
        .literal (.line '"' (plainSigns "// )") rfl (by decide)),
        .code " + b)".toList (by decide) (by decide)],
      by decide, by decide, by decide, by decide⟩,
    .blockComment " 'sh // echo( ".toList (by decide),
    .code ⟨"\nsh ".toList, by decide, by decide, by decide⟩,
    .literal (.line '\'' (plainSigns "it" ++ .escaped '\'' :: plainSigns "s //") rfl (by decide)),
    .lineComment " it's \"one".toList (by decide),
    .code ⟨"\nsh ".toList, by decide, by decide, by decide⟩,
    .literal (.block '"' (plainSigns "\"\"\n/*" ++ [.escaped '"']) rfl (by decide)),
    .blockComment "/".toList (by decide),
    .debugCall ⟨"echo".toList, [], [], by decide, by decide, by decide, by decide⟩,
    .code ⟨" \x7d".toList, by decide, by decide, by decide⟩]

theorem withoutNoise_segments_noisyScript :
    noisyScript.IsChain Segment.Precedes ∧
      noisyScript.flatMap Segment.text =
        "node \x7b println (f(\"// )\" + b))/* 'sh // echo( */".toList ++
          "\nsh 'it\\'s //'// it's \"one".toList ++
          "\nsh \"\"\"\"\"\n/*\\\"\"\"\"/*/*/echo() \x7d".toList ∧
      withoutNoise (noisyScript.flatMap Segment.text) =
        "node \x7b \nsh 'it\\'s //'\nsh \"\"\"\"\"\n/*\\\"\"\"\" \x7d".toList := by
  have chain : noisyScript.IsChain Segment.Precedes := by decide
  refine ⟨chain, by decide, ?_⟩
  rw [withoutNoise_segments chain]
  decide

end CiTranslate.Groovy
