import CiTranslate.Proofs.Yaml.Step

/-!
The entries of collections: their marks, their keys, and the values that hold no entries.

A mark or a key opens a block where it stands right of the innermost one (`opened`). A key on one
line is seen as one only at its colon, and then its tokens are put before what was read of it.
-/

namespace CiTranslate.Yaml

theorem Cursor.skipMany_one {cursor : Cursor} {c : Char} {rest : List Char}
    (left : cursor.rest = c :: rest) : cursor.skipMany 1 = ⟨rest, cursor.mark.after [c]⟩ := by
  have shape : cursor = ⟨[c] ++ rest, cursor.mark⟩ := by
    rw [List.singleton_append, ← left]
  rw [shape]
  exact Cursor.skipMany_append [c] rest _

namespace Scan

/-! ### Opening blocks -/

/-- What opens a block in a column, unless one is open there. -/
def openKinds (l : Int) (column : Nat) (kind : TokenKind) : List TokenKind :=
  if (column : Int) ≤ l then [] else [kind]

/-- The open blocks with one in the given column. -/
def opened (l : Int) (column : Nat) (levels : List Int) : List Int :=
  if (column : Int) ≤ l then l :: levels else column :: l :: levels

/-- A token is put in front of others that are not settled. -/
theorem Holds.insertAt {scan : Scan} {before after : List TokenKind} {levels : List Int}
    (holds : scan.Holds (before ++ after) levels) {number : Nat} (place : before.length = number)
    (unsettled : scan.settledCount ≤ number) (token : Token) (unended : token.kind ≠ .streamEnd) :
    (scan.insertAt number token).Holds (before ++ token.kind :: after) levels where
  read := by
    have split := holds.read
    rw [tokens, List.map_append, ← List.take_append_drop (number - scan.settledCount) scan.pending,
      List.map_append, ← List.append_assoc] at split
    have length : (scan.settled.reverse.map Token.kind ++
        (scan.pending.take (number - scan.settledCount)).map Token.kind).length = number := by
      have whole := congrArg List.length holds.read
      have counted := holds.counted
      simp only [tokens, List.length_map, List.length_append, List.length_reverse] at whole
      simp only [List.length_append, List.length_map, List.length_reverse, List.length_take]
      omega
    obtain ⟨front, back⟩ := List.append_inj split (by rw [length, place])
    rw [← front, ← back]
    simp [Scan.insertAt, tokens]
  blocks := holds.blocks
  counted := holds.counted
  unended := by
    have none := holds.unended
    simp only [List.mem_append, List.mem_cons, not_or] at none ⊢
    exact ⟨none.1, unended.symm, none.2⟩

section OpenBlock

variable (scan : Scan) (column : Nat) (number : Option Nat) (kind : TokenKind) (mark : Mark)

theorem openBlock_cursor : (scan.openBlock column number kind mark).cursor = scan.cursor := by
  unfold openBlock
  split
  · rfl
  · cases number <;> rfl

theorem openBlock_candidates :
    (scan.openBlock column number kind mark).candidates = scan.candidates := by
  unfold openBlock
  split
  · rfl
  · cases number <;> rfl

end OpenBlock

theorem Holds.openBlock {scan : Scan} {kinds : List TokenKind} {l : Int} {levels : List Int}
    (holds : scan.Holds kinds (l :: levels)) (outside : scan.inFlow = false) (column : Nat)
    {kind : TokenKind} (unended : kind ≠ .streamEnd) (mark : Mark) :
    (scan.openBlock column none kind mark).Holds (kinds ++ openKinds l column kind)
      (opened l column levels) := by
  unfold Scan.openBlock openKinds opened
  rw [outside, holds.indent, Bool.false_or]
  by_cases inside : (column : Int) ≤ l
  · simpa [inside] using holds
  · simp only [inside, if_false, decide_false, Bool.false_eq_true]
    refine ⟨?_, by simp [Scan.levels, push, ← holds.outer], holds.counted, ?_⟩
    · simp [← holds.read, tokens, push]
    · simpa using ⟨holds.unended, unended.symm⟩

theorem Holds.openBlock_before {scan : Scan} {before after : List TokenKind} {l : Int}
    {levels : List Int} (holds : scan.Holds (before ++ after) (l :: levels))
    (outside : scan.inFlow = false) {number : Nat} (place : before.length = number)
    (unsettled : scan.settledCount ≤ number) (column : Nat) (kind : TokenKind)
    (unended : kind ≠ .streamEnd) (mark : Mark) :
    (scan.openBlock column (some number) kind mark).Holds
      (before ++ openKinds l column kind ++ after) (opened l column levels) := by
  unfold Scan.openBlock openKinds opened
  rw [outside, holds.indent, Bool.false_or]
  by_cases inside : (column : Int) ≤ l
  · simpa [inside] using holds
  · simp only [inside, if_false, decide_false, Bool.false_eq_true]
    let inner : Scan := { scan with indent := column, outer := l :: scan.outer }
    have within : inner.Holds (before ++ after) (column :: l :: levels) :=
      ⟨holds.read, by simp [Scan.levels, inner, holds.outer], holds.counted, holds.unended⟩
    simpa [inner] using within.insertAt place unsettled ⟨kind, mark, mark⟩ unended

/-! ### Marks -/

/-- The marks of entries, with what opens a block at them. -/
inductive EntryMark : Char → TokenKind → TokenKind → Prop
  | item : EntryMark '-' .blockSequenceStart .blockEntry
  | key : EntryMark '?' .blockMappingStart .key
  | value : EntryMark ':' .blockMappingStart .value

section Marks

variable {c : Char} {opening kind : TokenKind}

theorem EntryMark.unended (sign : EntryMark c opening kind) :
    opening ≠ .streamEnd ∧ kind ≠ .streamEnd := by
  cases sign <;> simp

theorem EntryMark.atToken (sign : EntryMark c opening kind) (rest : List Char) :
    AtToken (c :: rest) := by
  rw [atToken_cons]
  cases sign <;> decide

theorem Place.readHere_mark {here : Scan} {kinds : List TokenKind} {levels : List Int}
    {column : Nat} {more : List Char}
    (place : here.Place kinds levels true column (c :: ' ' :: more))
    (sign : EntryMark c opening kind) :
    here.readHere = .ok ((here.openBlock column none opening here.cursor.mark).acceptMark true 1
      kind) := by
  have flow := inFlow_of_candidates place.candidates
  have allowed := place.allowed
  have idle : (here.openBlock column none opening here.cursor.mark).dropCandidate =
      .ok (here.openBlock column none opening here.cursor.mark) := by
    simp [dropCandidate, openBlock_candidates, place.candidates]
  have flow' : (here.openBlock column none opening here.cursor.mark).inFlow = false :=
    inFlow_of_candidates ((openBlock_candidates ..).trans place.candidates)
  have left : here.cursor = ⟨c :: ' ' :: more, here.cursor.mark⟩ := by rw [← place.rest]
  have marked (d : Char) (other : d ≠ ' ') : here.cursor.atMarker d = false := by
    rw [left]
    exact Cursor.not_atMarker (fun start => other
      (List.cons_prefix_cons.mp (List.cons_prefix_cons.mp start).2).1) _
  have blank : atBlankOrEnd (' ' :: more) = true := rfl
  have mayStart : (!here.inFlow && !here.keyAllowed) = false := by rw [flow, allowed]; rfl
  have hyphen := marked '-' (by decide)
  have dot := marked '.' (by decide)
  cases sign with
  | item =>
    have choice : here.readHere = here.readBlockEntry := by
      simp [readHere, place.rest, hyphen, dot, blank]
    rw [choice, readBlockEntry]
    simp only [mayStart, place.column, idle, Bool.false_eq_true, if_false]
    rfl
  | key =>
    have choice : here.readHere = here.readKey := by
      simp [readHere, place.rest, hyphen, dot, blank]
    rw [choice, readKey]
    simp only [mayStart, place.column, idle, Bool.false_eq_true, if_false]
    exact congrArg (fun inFlow => Except.ok (Scan.acceptMark _ (!inFlow) 1 .key)) flow'
  | value =>
    have choice : here.readHere = here.readValue := by
      simp [readHere, place.rest, hyphen, dot, blank]
    rw [choice, readValue]
    simp only [place.candidates, mayStart, place.column, flow', Bool.not_false,
      Bool.false_eq_true, if_false]

theorem Comes.exists_mark {scan : Scan} {kinds : List TokenKind} {l : Int} {levels : List Int}
    {column : Nat} {more : List Char}
    (comes : scan.Comes kinds (l :: levels) true column (c :: ' ' :: more))
    (sign : EntryMark c opening kind) (stays : l ≤ column) :
    ∃ next, scan.Step next ∧
      next.Comes (kinds ++ openKinds l column opening ++ [kind]) (opened l column levels) true
        (column + 2) more := by
  obtain ⟨here, reaches, place⟩ := comes.exists_place (sign.atToken _) (List.cons_ne_nil _ _) stays
  have read := place.readHere_mark sign
  have holds := place.toHolds.openBlock (inFlow_of_candidates place.candidates) column
    sign.unended.1 here.cursor.mark
  obtain ⟨next, settled, holds, cursor, allowed, none⟩ := holds.exists_marked
    ((openBlock_candidates ..).trans place.candidates)
    ⟨kind, here.cursor.mark, (here.cursor.skipMany 1).mark⟩ (here.cursor.skipMany 1) true
    sign.unended.2
  have after : here.cursor.skipMany 1 = ⟨spaces 1 ++ more, here.cursor.mark.after [c]⟩ :=
    Cursor.skipMany_one place.rest
  refine ⟨next, reaches.step comes.within.not_streamEnd ⟨_, read, ?_⟩ ?_, ⟨holds.within _, ?_⟩⟩
  · rw [acceptMark, openBlock_cursor]
    exact settled
  · rw [cursor, after, place.rest]
    simp only [List.length_append, List.length_cons, length_spaces]
    omega
  · have leads := Leads.blanks none allowed (cursor.trans after)
    simpa [place.column] using leads

end Marks

/-! ### Empty collections -/

/-- The brackets of an empty collection and their tokens. -/
inductive Brackets : Char → Char → TokenKind → TokenKind → Prop
  | square : Brackets '[' ']' .flowSequenceStart .flowSequenceEnd
  | curly : Brackets '\x7b' '\x7d' .flowMappingStart .flowMappingEnd

section Brackets

variable {o c : Char} {start stop : TokenKind}

theorem Brackets.unended (pair : Brackets o c start stop) :
    start ≠ .streamEnd ∧ stop ≠ .streamEnd := by
  cases pair <;> simp

theorem Brackets.atToken (pair : Brackets o c start stop) (rest : List Char) :
    AtToken (o :: rest) ∧ AtToken (c :: rest) := by
  rw [atToken_cons, atToken_cons]
  cases pair <;> decide

theorem Place.readHere_open {here : Scan} {kinds : List TokenKind} {levels : List Int}
    {allowed : Bool} {column : Nat} {rest : List Char}
    (place : here.Place kinds levels allowed column (o :: rest)) (pair : Brackets o c start stop) :
    here.readHere = .ok ({ here.noted with
      candidates := none :: here.noted.candidates }.acceptMark true 1 start) := by
  have left : here.cursor = ⟨o :: rest, here.cursor.mark⟩ := by rw [← place.rest]
  have marked (d : Char) (other : d ≠ o) : here.cursor.atMarker d = false := by
    rw [left]
    exact Cursor.not_atMarker (fun start => other (List.cons_prefix_cons.mp start).1) _
  rw [readHere]
  cases pair with
  | square =>
    simp only [place.rest, marked '-' (by decide), marked '.' (by decide)]
    simp [readFlowStart, noteKey_eq place.candidates, Except.map]
  | curly =>
    simp only [place.rest, marked '-' (by decide), marked '.' (by decide)]
    simp [readFlowStart, noteKey_eq place.candidates, Except.map]

theorem readNext_close {scan : Scan} {rest : List Char} {candidate : Option KeyCandidate}
    (inside : scan.candidates = [none, candidate])
    (fresh : ∀ c ∈ candidate, isStale c scan.cursor.mark = false)
    (left : scan.cursor.rest = c :: rest) (pair : Brackets o c start stop) (lines : Nat) :
    scan.readNext (lines + 1) =
      .ok ({ scan with candidates := [candidate] }.acceptMark false 1 stop) := by
  have flow : scan.inFlow = true := by simp [inFlow, inside]
  have idle : scan.dropCandidate = .ok scan := by simp [dropCandidate, inside]
  have shape : scan.cursor = ⟨c :: rest, scan.cursor.mark⟩ := by rw [← left]
  have marked (d : Char) (other : d ≠ c) : scan.cursor.atMarker d = false := by
    rw [shape]
    exact Cursor.not_atMarker (fun start => other (List.cons_prefix_cons.mp start).1) _
  rw [readNext_here left (pair.atToken rest).2
    (fun c mem => by
      simp only [inside, List.mem_cons, List.not_mem_nil, or_false] at mem
      rcases mem with none | mem
      · cases none
      · exact fresh c mem.symm)
    (.inl flow), readHere]
  cases pair with
  | square =>
    simp only [left, marked '-' (by decide), marked '.' (by decide)]
    simp [readFlowEnd, idle, flow, inside, Except.map]
  | curly =>
    simp only [left, marked '-' (by decide), marked '.' (by decide)]
    simp [readFlowEnd, idle, flow, inside, Except.map]

theorem Comes.exists_brackets {scan : Scan} {kinds : List TokenKind} {levels : List Int}
    {allowed cut : Bool} {top column n : Nat} {rest : List Char}
    (comes : scan.Comes kinds (top :: levels) allowed column
      (o :: c :: (cutEnd cut ['\n'] ++ (spaces n ++ rest))))
    (pair : Brackets o c start stop) (inside : top < column) (follows : Follows cut top n rest) :
    ∃ next, scan.Steps next ∧
      next.Comes (kinds ++ [start, stop]) (top :: levels) true n rest := by
  obtain ⟨here, reaches, place⟩ := comes.exists_place (pair.atToken _).1 (List.cons_ne_nil _ _)
    (by omega)
  obtain ⟨candidate, one, known⟩ := exists_candidate_noted place.candidates
  have free : ∀ c ∈ candidate, c.required = false ∧ c.mark = here.cursor.mark := by
    intro c mem
    refine ⟨?_, (known c mem).2⟩
    rw [(known c mem).1, place.toHolds.indent, place.column]
    exact beq_eq_false_iff_ne.mpr (by omega)
  -- The first bracket opens a level of its own for keys.
  let inner : Scan := { here.noted with candidates := none :: here.noted.candidates }
  have after : inner.cursor.skipMany 1 = ⟨c :: (cutEnd cut ['\n'] ++ (spaces n ++ rest)),
      here.cursor.mark.after [o]⟩ := by
    rw [show inner.cursor = here.cursor from noted_cursor here, Cursor.skipMany_one place.rest]
  obtain ⟨middle, settled, holds, cursor, -, kept⟩ :=
    (place.toHolds.noted.congr inner rfl rfl rfl rfl rfl).exists_accepted
      ⟨start, inner.cursor.mark, (inner.cursor.skipMany 1).mark⟩ (inner.cursor.skipMany 1)
      (fun c mem => by
        simp only [inner, one, List.mem_cons, List.not_mem_nil, or_false] at mem
        rcases mem with none | mem
        · cases none
        · exact (free c mem.symm).1) true pair.unended.1
  rw [after] at cursor kept
  have inside : middle.candidates = [none, candidate.filter fun c =>
      !isStale c (here.cursor.mark.after [o])] := by
    rw [kept, show inner.candidates = [none, candidate] from congrArg (none :: ·) one]
    rfl
  -- The second one goes back to the level around it.
  let outer : Scan := { middle with candidates := [candidate.filter fun c =>
    !isStale c (here.cursor.mark.after [o])] }
  have after' : outer.cursor.skipMany 1 = ⟨cutEnd cut ['\n'] ++ (spaces n ++ rest),
      here.cursor.mark.after [o, c]⟩ := by
    rw [show outer.cursor = _ from cursor, Cursor.skipMany_one rfl, Mark.after_after]
    rfl
  obtain ⟨next, settled', holds', cursor', -, kept'⟩ :=
    (holds.congr outer rfl rfl rfl rfl rfl).exists_accepted
      ⟨stop, outer.cursor.mark, (outer.cursor.skipMany 1).mark⟩ (outer.cursor.skipMany 1)
      (fun c mem => by
        simp only [outer, List.mem_cons, List.not_mem_nil, or_false] at mem
        exact (free c (Option.mem_filter_iff.mp mem.symm).1).1) false pair.unended.2
  rw [List.map_singleton, ← cursor'] at kept'
  have idle := (idle_of_filter kept' fun c mem => by
    have own := free c (Option.mem_filter_iff.mp mem).1
    exact ⟨own.1, by rw [own.2, cursor', after']; exact Nat.le_refl _⟩).1
  have first : scan.Step middle := reaches.step comes.within.not_streamEnd
    ⟨_, place.readHere_open pair, settled⟩ (by rw [cursor, place.rest]; simp)
  have second : middle.Step next := by
    refine ⟨fun lines enough => ?_, ?_, holds.not_streamEnd⟩
    · obtain ⟨lines, rfl⟩ : ∃ more, lines = more + 1 := ⟨lines - 1, by omega⟩
      refine ⟨_, readNext_close inside (fun c mem => ?_) (by rw [cursor]) pair lines, settled'⟩
      rw [cursor]
      simpa using (Option.mem_filter_iff.mp mem).2
    · rw [cursor', after', cursor]
      simp
  refine ⟨next, .head first (.single second), ?_, follows.leads idle (cursor'.trans after')⟩
  rw [List.append_assoc] at holds'
  exact holds'.within _

end Brackets

end Scan

/-! ### Texts -/

/-- The style in which a written text is read back. -/
def textStyle (text : String) : Style :=
  match styleOf text.toList with
  | .plain => .plain
  | .single | .double => .quoted
  | .literal => .block

/-- The token of a written text. -/
def textKind (text : String) : TokenKind := .scalar text.toList (textStyle text)

namespace Scan

theorem Comes.exists_text {scan : Scan} {kinds : List TokenKind} {levels : List Int}
    {allowed cut : Bool} {top column n : Nat} {rest : List Char} {text : String}
    (comes : scan.Comes kinds (top :: levels) allowed column
      (cutEnd cut (textLine (top + 2) text) ++ (spaces n ++ rest)))
    (last : cut = true → styleOf text.toList = .literal →
      ∀ c ∈ text.toList.getLast?, isBreak c = false)
    (inside : top < column) (follows : Follows cut top n rest) :
    ∃ next, scan.Step next ∧ next.Comes (kinds ++ [textKind text]) (top :: levels) true n rest := by
  have lineEnd : ['\n'] ≠ [] := List.cons_ne_nil _ _
  unfold textLine at comes
  unfold textKind textStyle
  dsimp only at comes
  cases style : styleOf text.toList with
  | plain =>
    rw [style, cutEnd_append cut _ lineEnd, List.append_assoc] at comes
    exact comes.exists_plain (plainWord_of_styleOf style) inside follows
  | single =>
    rw [style, cutEnd_append cut _ lineEnd, List.append_assoc] at comes
    refine comes.exists_quoted (.inl rfl) (fun after mark other => ?_) inside follows
    obtain ⟨stop, line, -, found⟩ := @readQuoted_single (top + 2) _ _
      (singleFrom_of_styleOf style) (.inl (by omega)) other mark
    exact ⟨stop, line, found⟩
  | double =>
    rw [style, cutEnd_append cut _ lineEnd, List.append_assoc] at comes
    exact comes.exists_quoted (.inr rfl)
      (fun after mark _ => ⟨mark.after (doubleQuoted text.toList), Nat.le_refl mark.line,
        readQuoted_double text.toList after mark⟩) inside follows
  | literal =>
    rw [style] at comes
    obtain ⟨lineEnd, holds⟩ := literal_of_styleOf style
    exact comes.exists_literal (List.ne_nil_of_mem lineEnd) holds (fun cut => last cut style) inside
      follows

/-! ### Keys -/

/-- A simple key as it is read up to its colon. -/
theorem Place.readHere_simpleKey {here : Scan} {kinds : List TokenKind} {l : Int}
    {levels : List Int} {allowed : Bool} {column : Nat} {key : String} {after : List Char}
    (place : here.Place kinds (l :: levels) allowed column (simpleKey key ++ ':' :: after))
    (simple : isSimpleKey key = true) (blank : atBlankOrEnd after = true) (stays : l ≤ column) :
    ∃ token, token.kind = textKind key ∧
      here.readHere = .ok (here.noted.accept false
        (token, ⟨':' :: after, here.cursor.mark.after (simpleKey key)⟩)) := by
  have oneLine : ∀ c ∈ key.toList, isBreak c = false := by
    simp only [isSimpleKey, Bool.and_eq_true, Bool.not_eq_true', List.any_eq_false] at simple
    exact fun c mem => by simpa using simple.1 c mem
  have left : here.cursor = ⟨simpleKey key ++ ':' :: after, here.cursor.mark⟩ := by
    rw [← place.rest]
  unfold simpleKey at place left ⊢
  unfold textKind textStyle
  dsimp only at place left ⊢
  cases style : styleOf key.toList with
  | plain =>
    rw [style] at place left
    have word := plainWord_of_styleOf style
    have ends : EndsWord (':' :: after) := .inr ⟨after, rfl, blank⟩
    exact ⟨_, rfl, place.readHere_plain word stays (.inr (word.unmarked_append ends))
      (.here _ ends rfl)⟩
  | single =>
    rw [style] at place left
    obtain ⟨stop, -, moved, found⟩ := @readQuoted_single 0 _ (':' :: after)
      (singleFrom_of_styleOf style) (.inr oneLine) (by simp) here.cursor.mark
    rw [← left] at found
    have read := place.readHere_quoted (.inl rfl) found
    rw [moved oneLine] at read
    exact ⟨_, rfl, read⟩
  | double =>
    rw [style] at place left
    have found := readQuoted_double key.toList (':' :: after) here.cursor.mark
    rw [← left] at found
    exact ⟨_, rfl, place.readHere_quoted (.inr rfl) found⟩
  | literal =>
    have lineEnd := oneLine _ (literal_of_styleOf style).1
    cases lineEnd

/-- A key starts with its first character or with a quote. -/
theorem exists_cons_simpleKey (key : String) :
    ∃ c more, simpleKey key = c :: more ∧ ∀ rest, AtToken (c :: rest) := by
  simp only [atToken_cons]
  unfold simpleKey
  dsimp only
  cases style : styleOf key.toList with
  | plain =>
    have word := plainWord_of_styleOf style
    obtain ⟨c, more, shape, -⟩ := word.starts
    have token := word.atToken []
    rw [List.append_nil, shape, atToken_cons] at token
    exact ⟨c, more, shape, fun _ => token⟩
  | single => exact ⟨'\'', _, rfl, fun _ => by decide⟩
  | double => exact ⟨'"', _, rfl, fun _ => by decide⟩
  | literal => exact ⟨'"', _, rfl, fun _ => by decide⟩

/-- At its colon, what was read becomes a key. -/
theorem exists_readNext_colon {scan : Scan} {kinds : List TokenKind} {scalar : TokenKind} {l : Int}
    {levels : List Int} {c : KeyCandidate} {after : List Char}
    (holds : scan.Holds (kinds ++ [scalar]) (l :: levels)) (one : scan.candidates = [some c])
    (number : c.number = kinds.length) (unsettled : scan.settledCount ≤ c.number)
    (fresh : isStale c scan.cursor.mark = false)
    (stays : l ≤ scan.cursor.mark.column) (left : scan.cursor.rest = ':' :: after)
    (blank : atBlankOrEnd after = true) :
    ∃ next read, (∀ lines, scan.readNext (lines + 1) = .ok read) ∧ read.settle = .ok next ∧
      next.Holds (kinds ++ openKinds l c.mark.column .blockMappingStart ++ [.key, scalar, .value])
        (opened l c.mark.column levels) ∧
      next.cursor = ⟨after, scan.cursor.mark.after [':']⟩ ∧ next.keyAllowed = false ∧
      next.candidates = [none] := by
  have token : AtToken (':' :: after) := by
    rw [atToken_cons]
    decide
  have flow := inFlow_of_candidates one
  have shape : scan.cursor = ⟨':' :: after, scan.cursor.mark⟩ := by rw [← left]
  have marked (d : Char) (other : d ≠ ':') : scan.cursor.atMarker d = false := by
    rw [shape]
    exact Cursor.not_atMarker (fun start => other (List.cons_prefix_cons.mp start).1) _
  let keyed : Scan := (scan.insertAt c.number ⟨.key, c.mark, c.mark⟩).openBlock c.mark.column
    (some c.number) .blockMappingStart c.mark
  have toValue : scan.readHere =
      .ok ({ keyed with candidates := [none] }.acceptMark false 1 .value) := by
    rw [readHere]
    simp only [left, marked '-' (by decide), marked '.' (by decide), blank]
    simp [readValue, one, keyed]
  have inserted := holds.insertAt number.symm unsettled ⟨.key, c.mark, c.mark⟩ (by simp)
  have opened := inserted.openBlock_before (inFlow_of_candidates one) number.symm unsettled
    c.mark.column .blockMappingStart (by simp) c.mark
  have cursor : keyed.cursor = scan.cursor := openBlock_cursor ..
  obtain ⟨next, settled, holds', cursor', allowed', none⟩ :=
    (opened.congr { keyed with candidates := [none] } rfl rfl rfl rfl rfl).exists_marked
      rfl ⟨.value, keyed.cursor.mark, (keyed.cursor.skipMany 1).mark⟩ (keyed.cursor.skipMany 1)
      false (by simp)
  refine ⟨next, _, fun lines =>
    (readNext_here left token (fun d mem => ?_) (.inr ?_) lines).trans toValue, settled,
    by simpa using holds', ?_, allowed', none⟩
  · obtain rfl : d = c := by simpa [one] using mem
    exact fresh
  · rw [holds.indent]
    exact stays
  · rw [cursor', cursor, Cursor.skipMany_one left]

theorem Comes.exists_key {scan : Scan} {kinds : List TokenKind} {l : Int} {levels : List Int}
    {column : Nat} {key : String} {after : List Char}
    (comes : scan.Comes kinds (l :: levels) true column (simpleKey key ++ ':' :: after))
    (simple : isSimpleKey key = true) (blank : atBlankOrEnd after = true) (stays : l ≤ column) :
    ∃ next, scan.Steps next ∧
      next.Holds (kinds ++ openKinds l column .blockMappingStart ++ [.key, textKind key, .value])
        (opened l column levels) ∧
      next.candidates = [none] ∧ next.keyAllowed = false ∧ next.cursor.rest = after ∧
      column < next.cursor.mark.column := by
  obtain ⟨first, more, shape, starts⟩ := exists_cons_simpleKey key
  obtain ⟨here, reaches, place⟩ :=
    comes.exists_place (by rw [shape]; exact starts _) (by simp) stays
  obtain ⟨token, kind, read⟩ := place.readHere_simpleKey simple blank stays
  have length := byteLength_simpleKey simple
  let c : KeyCandidate :=
    { required := here.indent == here.cursor.mark.column
      number := here.settledCount + here.pending.length
      mark := here.cursor.mark }
  have one : here.noted.candidates = [some c] := by rw [noted, if_pos place.allowed]
  have fresh : isStale c (here.cursor.mark.after (simpleKey key)) = false := by
    have near : ¬here.cursor.mark.index + 1024 <
        here.cursor.mark.index + Text.byteLength (simpleKey key) := by omega
    simp [isStale, c, Mark.after, near]
  have unended : token.kind ≠ .streamEnd := by
    rw [kind, textKind]
    simp
  -- The first step reads a scalar, which the second one puts a key in front of.
  obtain ⟨middle, settled, holds, cursor, -, kept, early, -⟩ :=
    exists_settle (place.toHolds.noted.accept false
        (token, ⟨':' :: after, here.cursor.mark.after (simpleKey key)⟩) unended)
      (by simp [Scan.accept, push]) (fun d mem _ => by
        obtain rfl : d = c := by simpa [Scan.accept, push, one] using mem
        exact fresh)
  have own : middle.candidates = [some c] := by
    rw [kept, show (here.noted.accept false _).candidates = [some c] from one, List.map_singleton]
    exact congrArg (fun candidate => [candidate])
      (Option.filter_some_pos (by simp [Scan.accept, push, fresh]))
  have number : c.number = kinds.length := by
    rw [← place.toHolds.read, List.length_map, tokens, List.length_append, List.length_reverse,
      ← place.toHolds.counted]
  have behind : middle.cursor.mark.column = column + (simpleKey key).length := by
    rw [cursor]
    exact congrArg (· + (simpleKey key).length) place.column
  have scanned : middle.cursor.rest = ':' :: after := congrArg Cursor.rest cursor
  have stale : isStale c middle.cursor.mark = false := by rw [cursor]; exact fresh
  have count : here.noted.settledCount = here.settledCount := by
    unfold noted
    split <;> rfl
  have first : scan.Step middle := reaches.step comes.within.not_streamEnd ⟨_, read, settled⟩ (by
    rw [scanned, place.rest, shape]
    simp only [List.length_append, List.length_cons]
    omega)
  rw [kind] at holds
  obtain ⟨next, read', found, settled', holds', cursor', allowed', none⟩ :=
    exists_readNext_colon holds own number
      (early c (by simp [own]) (count ▸ Nat.le_add_right _ _))
      (by rw [cursor]; exact fresh) (by rw [behind]; omega) scanned blank
  have second : middle.Step next := by
    refine ⟨fun lines enough => ?_, ?_, holds.not_streamEnd⟩
    · obtain ⟨lines, rfl⟩ : ∃ more, lines = more + 1 := ⟨lines - 1, by omega⟩
      exact ⟨read', found lines, settled'⟩
    · rw [cursor', scanned]
      exact Nat.lt_succ_self _
  rw [show c.mark.column = column from place.column] at holds'
  refine ⟨next, .head first (.single second), holds', none, allowed', by rw [cursor'], ?_⟩
  rw [cursor', Mark.column_after, behind]
  simp only [List.length_singleton]
  omega

end Scan

end CiTranslate.Yaml
