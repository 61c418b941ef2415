import CiTranslate.Proofs.Yaml.Scan

/-!
The steps in which the marks and scalars of a text in block form are read.
-/

namespace CiTranslate.Yaml.Scan

/-! ### Runs -/

/-- What is read here. -/
def Reads (here next : Scan) : Prop := ∃ read, here.readHere = .ok read ∧ read.settle = .ok next

/-- A token is read, however many lines may be passed over before it, and the text is not at its
end. -/
structure Step (scan next : Scan) : Prop where
  reads (lines : Nat) (enough : 2 ≤ lines) :
    ∃ read, scan.readNext lines = .ok read ∧ read.settle = .ok next
  shorter : next.cursor.rest.length < scan.cursor.rest.length
  unended : ∀ token ∈ scan.settled, token.kind ≠ .streamEnd

theorem Holds.not_streamEnd {scan : Scan} {kinds : List TokenKind} {levels : List Int}
    (holds : scan.Holds kinds levels) : ∀ token ∈ scan.settled, token.kind ≠ .streamEnd := by
  intro token mem last
  refine holds.unended ?_
  rw [← holds.read, ← last]
  exact List.mem_map_of_mem (List.mem_append_left _ (List.mem_reverse.mpr mem))

theorem Within.not_streamEnd {scan : Scan} {column : Int} {kinds : List TokenKind}
    {levels : List Int} (within : scan.Within column kinds levels) :
    ∀ token ∈ scan.settled, token.kind ≠ .streamEnd := by
  obtain ⟨inner, deeper, holds, -⟩ := within
  exact holds.not_streamEnd

theorem Reaches.step {scan here next : Scan} (reaches : scan.Reaches here)
    (unended : ∀ token ∈ scan.settled, token.kind ≠ .streamEnd) (reads : here.Reads next)
    (shorter : next.cursor.rest.length < here.cursor.rest.length) : scan.Step next where
  reads lines enough := by rw [reaches.1 lines enough]; exact reads
  shorter := Nat.lt_of_lt_of_le shorter reaches.2
  unended := unended

/-- Several tokens are read. -/
def Steps : Scan → Scan → Prop := Relation.ReflTransGen Step

/-- There are always enough steps left, as each one reads some of the text. -/
theorem Steps.readFrom {scan next : Scan} (steps : scan.Steps next) {fuel : Nat}
    (enough : scan.cursor.rest.length + 2 ≤ fuel) :
    ∃ left, next.cursor.rest.length + 2 ≤ left ∧
      Tokens.readFrom fuel scan = Tokens.readFrom left next := by
  induction steps using Relation.ReflTransGen.head_induction_on generalizing fuel with
  | refl => exact ⟨fuel, enough, rfl⟩
  | @head scan middle step rest ih =>
    obtain ⟨fuel, rfl⟩ : ∃ more, fuel = more + 1 := ⟨fuel - 1, by omega⟩
    obtain ⟨read, found, settled⟩ := step.reads (fuel + 1) (by omega)
    have shorter := step.shorter
    obtain ⟨left, enough', later⟩ := ih (show middle.cursor.rest.length + 2 ≤ fuel by omega)
    refine ⟨left, enough', ?_⟩
    rw [Tokens.readFrom]
    split
    · next shape => exact absurd rfl (step.unended _ (shape ▸ List.mem_cons_self ..))
    · simp only [found, settled, later]

/-! ### Places for scalars -/

/-- Notes that a key may start here, where none is noted yet. -/
def noted (scan : Scan) : Scan :=
  if scan.keyAllowed then
    { scan with candidates := [some {
        required := scan.indent == scan.cursor.mark.column
        number := scan.settledCount + scan.pending.length
        mark := scan.cursor.mark }] }
  else scan

theorem noteKey_eq {scan : Scan} (none : scan.candidates = [none]) :
    scan.noteKey = .ok scan.noted := by
  have idle : scan.dropCandidate = .ok scan := by simp [dropCandidate, none]
  have flow : scan.inFlow = false := inFlow_of_candidates none
  unfold noteKey noted
  split
  · rw [idle]
    simp [Except.map, flow, none]
  · rfl

theorem noted_cursor (scan : Scan) : scan.noted.cursor = scan.cursor := by
  unfold noted
  split <;> rfl

theorem noted_indent (scan : Scan) : scan.noted.indent = scan.indent := by
  unfold noted
  split <;> rfl

theorem Holds.noted {scan : Scan} {kinds : List TokenKind} {levels : List Int}
    (holds : scan.Holds kinds levels) : scan.noted.Holds kinds levels := by
  unfold Scan.noted
  split
  · exact holds.congr _ rfl rfl rfl rfl rfl
  · exact holds

theorem exists_candidate_noted {scan : Scan} (one : scan.candidates = [none]) :
    ∃ candidate, scan.noted.candidates = [candidate] ∧ ∀ c ∈ candidate,
      c.required = (scan.indent == (scan.cursor.mark.column : Int)) ∧
        c.mark = scan.cursor.mark := by
  unfold noted
  split
  · exact ⟨_, rfl, fun c mem => by cases mem; exact ⟨rfl, rfl⟩⟩
  · exact ⟨none, one, fun _ mem => absurd mem (Option.not_mem_none _)⟩

/-- A token is accepted where no key has to follow. -/
theorem Holds.exists_accepted {scan : Scan} {kinds : List TokenKind} {levels : List Int}
    (holds : scan.Holds kinds levels) (token : Token) (after : Cursor)
    (free : ∀ c, some c ∈ scan.candidates → c.required = false) (keyAllowed : Bool)
    (unended : token.kind ≠ .streamEnd) :
    ∃ next, (scan.accept keyAllowed (token, after)).settle = .ok next ∧
      next.Holds (kinds ++ [token.kind]) levels ∧ next.cursor = after ∧
      next.keyAllowed = keyAllowed ∧
      next.candidates = scan.candidates.map (·.filter fun c => !isStale c after.mark) := by
  obtain ⟨next, settled, holds, cursor, allowed, candidates, -⟩ := exists_settle
    (holds.accept keyAllowed (token, after) unended) (by simp [Scan.accept, push])
    (fun c mem required => by
      rw [free c mem] at required
      cases required)
  exact ⟨next, settled, holds, cursor, allowed, candidates⟩

/-- The only candidate is of this line, and given up with it. -/
theorem idle_of_filter {scan : Scan} {candidate : Option KeyCandidate}
    (kept : scan.candidates = [candidate.filter fun c => !isStale c scan.cursor.mark])
    (free : ∀ c ∈ candidate, c.required = false ∧ c.mark.line ≤ scan.cursor.mark.line) :
    scan.Idle ∧
      ((∀ c ∈ candidate, c.mark.line < scan.cursor.mark.line) → scan.candidates = [none]) := by
  refine ⟨⟨_, kept, fun c mem => free c (Option.mem_filter_iff.mp mem).1⟩, fun passed => ?_⟩
  rw [kept]
  refine congrArg (fun c => [c]) (Option.filter_eq_none_iff.mpr fun c mem => ?_)
  simp [isStale, passed c mem]

/-- A scalar is accepted right of the column of the keys. -/
theorem Place.exists_accepted {here : Scan} {kinds : List TokenKind} {l : Int} {levels : List Int}
    {allowed : Bool} {column : Nat} {rest : List Char}
    (place : here.Place kinds (l :: levels) allowed column rest) (inside : l < column)
    {token : Token} {after : Cursor} {keyAllowed : Bool}
    (read : here.readHere = .ok (here.noted.accept keyAllowed (token, after)))
    (line : here.cursor.mark.line ≤ after.mark.line) (unended : token.kind ≠ .streamEnd) :
    ∃ next, here.Reads next ∧ next.Holds (kinds ++ [token.kind]) (l :: levels) ∧
      next.cursor = after ∧ next.keyAllowed = keyAllowed ∧ next.Idle ∧
      (here.cursor.mark.line < after.mark.line → next.candidates = [none]) := by
  obtain ⟨candidate, one, known⟩ := exists_candidate_noted place.candidates
  have free : ∀ c ∈ candidate, c.required = false := by
    intro c mem
    rw [(known c mem).1, place.toHolds.indent, place.column]
    exact beq_eq_false_iff_ne.mpr (by omega)
  obtain ⟨next, settled, holds, cursor, allowed', kept⟩ :=
    place.toHolds.noted.exists_accepted token after
      (fun c mem => free c (by simpa [one, eq_comm] using mem)) keyAllowed unended
  rw [one, List.map_singleton, ← cursor] at kept
  obtain ⟨idle, passed⟩ := idle_of_filter kept fun c mem =>
    ⟨free c mem, by rw [(known c mem).2, cursor]; exact line⟩
  exact ⟨next, ⟨_, read, settled⟩, holds, cursor, allowed', idle, fun later =>
    passed fun c mem => by rw [(known c mem).2, cursor]; exact later⟩

/-- What is no scalar leaves no candidate behind. -/
theorem Holds.exists_marked {scan : Scan} {kinds : List TokenKind} {levels : List Int}
    (holds : scan.Holds kinds levels) (none : scan.candidates = [none]) (token : Token)
    (after : Cursor) (keyAllowed : Bool) (unended : token.kind ≠ .streamEnd) :
    ∃ next, (scan.accept keyAllowed (token, after)).settle = .ok next ∧
      next.Holds (kinds ++ [token.kind]) levels ∧ next.cursor = after ∧
      next.keyAllowed = keyAllowed ∧ next.candidates = [Option.none] := by
  obtain ⟨next, settled, holds, cursor, allowed, kept⟩ := holds.exists_accepted token after
    (by simp [none]) keyAllowed unended
  exact ⟨next, settled, holds, cursor, allowed, by rw [kept, none]; rfl⟩

end Scan

/-! ### After a scalar -/

/-- The text at the end of a document may have lost its last line end. -/
def cutEnd (cut : Bool) (text : List Char) : List Char := if cut then text.dropLast else text

theorem cutEnd_append (cut : Bool) (text : List Char) {more : List Char} (filled : more ≠ []) :
    cutEnd cut (text ++ more) = text ++ cutEnd cut more := by
  cases cut with
  | false => rfl
  | true => exact List.dropLast_append_of_ne_nil filled

/-- What comes after the text of an entry: a token that does not stand right of the entry, or
nothing at all if the text has lost its line end. -/
structure Follows (cut : Bool) (column n : Nat) (rest : List Char) : Prop where
  left : n ≤ column
  token : AtToken rest
  last : cut = true → n = 0 ∧ rest = []

theorem exists_cutEnd_literalBlock (cut : Bool) (column : Nat) (text : List Char) :
    ∃ more, cutEnd cut (literalBlock column text) = '|' :: more := by
  cases cut with
  | false => exact ⟨_, rfl⟩
  | true =>
    obtain ⟨c, body, shape⟩ := List.exists_cons_of_ne_nil (l := (literalBlock column text).tail)
      (by simp [literalBlock])
    have whole : literalBlock column text = '|' :: c :: body := congrArg ('|' :: ·) shape
    exact ⟨_, by rw [cutEnd, if_pos rfl, whole, List.dropLast_cons_cons]⟩

section Follows

variable {cut : Bool} {column n : Nat} {rest : List Char}

/-- A line end leads on to what follows. -/
theorem Follows.leads (follows : Follows cut column n rest) {scan : Scan} (idle : scan.Idle)
    {mark : Mark} (left : scan.cursor = ⟨cutEnd cut ['\n'] ++ (spaces n ++ rest), mark⟩) :
    scan.Leads true n rest := by
  cases cut with
  | false => exact .line idle left
  | true =>
    obtain ⟨rfl, rfl⟩ := follows.last rfl
    exact .finish idle (congrArg Cursor.rest left)

/-- A plain scalar takes the line end and the indentation after it along. -/
theorem Follows.exists_endsPlain (follows : Follows cut column n rest) (mark : Mark) :
    ∃ broken after, EndsPlain ((column : Int) + 1)
        ⟨cutEnd cut ['\n'] ++ (spaces n ++ rest), mark⟩ broken after ∧
      mark.line ≤ after.mark.line ∧
      after.rest.length ≤ (cutEnd cut ['\n'] ++ (spaces n ++ rest)).length ∧
      ∀ scan : Scan, scan.cursor = after → scan.keyAllowed = broken → scan.Idle →
        (mark.line < after.mark.line → scan.candidates = [none]) → scan.Leads true n rest := by
  cases cut with
  | false =>
    have left := follows.left
    refine ⟨true, _, .line mark (by omega) follows.token.atWord, by simp, ?_,
      fun scan cursor allowed idle passed => ?_⟩
    · simp [cutEnd]
      omega
    · have leads := Scan.Leads.blanks (k := 0) (passed (by simp)) allowed cursor
      simpa [Mark.column_afterBreaks] using leads
  | true =>
    obtain ⟨rfl, rfl⟩ := follows.last rfl
    exact ⟨false, _, .here mark (.inl rfl) rfl, Nat.le_refl _, Nat.le_refl _,
      fun scan cursor allowed idle passed => .finish idle (congrArg Cursor.rest cursor)⟩

end Follows

/-! ### Plain scalars -/

theorem PlainWord.atToken {text : List Char} (word : PlainWord text) (after : List Char) :
    AtToken (text ++ after) := by
  obtain ⟨c, text, rfl, noBlank, noHash⟩ := word.starts
  have oneLine := word.oneLine c (List.mem_cons_self ..)
  rw [List.cons_append, atToken_cons]
  exact ⟨by simp [isBlankOrBreak, isSpaceOrTab, oneLine, noBlank], noHash, (word.first c rfl).2⟩

/-- A word starts a plain scalar. -/
theorem PlainWord.startsPlain {c : Char} {text : List Char} (word : PlainWord (c :: text))
    (after : List Char) : Scan.startsPlain false c (text ++ after) = true := by
  have visible : isBlankOrBreak c = false := (word.atToken [] c rfl).1
  have first := (word.first c rfl).1
  simp only [isFirstIndicator, Bool.or_eq_false_iff] at first
  by_cases sign : c = '-' ∨ c = '?' ∨ c = ':'
  · have solid := atBlankOrEnd_append (word.mark sign) after
    have noBlank : (text ++ after).head?.any isSpaceOrTab = false := by
      cases rest : text ++ after with
      | nil => rfl
      | cons d rest =>
        rw [rest, atBlankOrEnd_cons] at solid
        exact (not_isBlankOrBreak solid).1
    generalize text ++ after = next at solid noBlank
    rcases sign with rfl | rfl | rfl <;> simp [Scan.startsPlain, solid, noBlank]
  · have noSign : Scan.isIndicator c = false := by
      have others : c ∉ "#,[]\x7b\x7d&*!|>'\"%@".toList := by simpa using first.1
      simp only [String.reduceToList, List.mem_cons, List.not_mem_nil, or_false, not_or] at others
      simp only [not_or] at sign
      simp [Scan.isIndicator, first.2, sign, others]
    have blanks := not_isBlankOrBreak visible
    simp [Scan.startsPlain, noSign, blanks]

namespace Scan

theorem readHere_plain {scan : Scan} {text after : List Char} {mark : Mark} (word : PlainWord text)
    (outside : scan.inFlow = false) (left : scan.cursor = ⟨text ++ after, mark⟩)
    (unmarked : mark.column ≠ 0 ∨ Cursor.Unmarked (text ++ after)) :
    scan.readHere = scan.readPlainToken := by
  obtain ⟨c, text, rfl, -⟩ := word.starts
  have marked : (⟨c :: text ++ after, mark⟩ : Cursor).atDocumentMarker = false :=
    Cursor.not_atDocumentMarker unmarked
  rw [Cursor.atDocumentMarker, Bool.or_eq_false_iff, ← left] at marked
  have rest : scan.cursor.rest = c :: (text ++ after) := by rw [left]; rfl
  have first := (word.first c rfl).1
  have noSign (d : Char) (indicator : isFirstIndicator d = true) : (c == d) = false := by
    refine beq_eq_false_iff_ne.mpr ?_
    rintro rfl
    rw [first] at indicator
    cases indicator
  have sign (d : Char) (mark : d = '-' ∨ d = '?' ∨ d = ':') :
      (c == d && atBlankOrEnd (text ++ after)) = false := by
    rw [Bool.and_eq_false_iff, beq_eq_false_iff_ne]
    by_cases same : c = d
    · exact .inr (atBlankOrEnd_append (word.mark (same ▸ mark)) after)
    · exact .inl same
  rw [readHere]
  simp only [rest, outside, marked, Bool.false_or, Bool.not_false, Bool.and_true, Bool.and_false,
    noSign '%' rfl, noSign '[' rfl, noSign '\x7b' rfl, noSign ']' rfl, noSign '\x7d' rfl,
    noSign ',' rfl, noSign '*' rfl, noSign '&' rfl, noSign '!' rfl, noSign '|' rfl, noSign '>' rfl,
    noSign '\'' rfl, noSign '"' rfl, sign '-' (.inl rfl), sign '?' (.inr (.inl rfl)),
    sign ':' (.inr (.inr rfl)), word.startsPlain after, Bool.false_eq_true, if_false, if_true]

section Places

variable {here : Scan} {kinds : List TokenKind} {levels : List Int} {allowed : Bool} {column : Nat}

theorem Place.readHere_plain {l : Int} {text after : List Char} {broken : Bool} {next : Cursor}
    (place : here.Place kinds (l :: levels) allowed column (text ++ after)) (word : PlainWord text)
    (inside : l ≤ column) (unmarked : column ≠ 0 ∨ Cursor.Unmarked (text ++ after))
    (ends : EndsPlain (l + 1) ⟨after, here.cursor.mark.after text⟩ broken next) :
    here.readHere = .ok (here.noted.accept broken
      (⟨.scalar text .plain, here.cursor.mark, here.cursor.mark.after text⟩, next)) := by
  have flow := inFlow_of_candidates place.candidates
  have left : here.cursor = ⟨text ++ after, here.cursor.mark⟩ := by rw [← place.rest]
  have found := readPlain_eq word.toPlainFrom word.starts (by rwa [place.column])
    (by rwa [place.column]) ends
  obtain ⟨candidate, one, -⟩ := exists_candidate_noted place.candidates
  rw [Scan.readHere_plain word flow left (by rwa [place.column]), readPlainToken,
    noteKey_eq place.candidates]
  change (readPlain here.noted.inFlow here.noted.indent here.noted.cursor).bind (fun read =>
    .ok (here.noted.accept read.2.2 (read.1, read.2.1))) = _
  rw [inFlow_of_candidates one, noted_indent, noted_cursor, place.toHolds.indent, left, found]
  rfl

theorem Place.readHere_quoted {quote : Char} {more : List Char} {token : Token} {next : Cursor}
    (place : here.Place kinds levels allowed column (quote :: more))
    (sign : quote = '\'' ∨ quote = '"') (found : readQuoted quote here.cursor = .ok (token, next)) :
    here.readHere = .ok (here.noted.accept false (token, next)) := by
  have marked (c : Char) (other : c ≠ quote) : here.cursor.atMarker c = false := by
    have left : here.cursor = ⟨quote :: more, here.cursor.mark⟩ := by rw [← place.rest]
    rw [left]
    exact Cursor.not_atMarker (fun start => other (List.cons_prefix_cons.mp start).1) _
  have toQuoted : here.readHere = here.readQuotedToken quote := by
    have flow := inFlow_of_candidates place.candidates
    rw [readHere]
    rcases sign with rfl | rfl <;>
      simp [place.rest, flow, marked '-' (by decide), marked '.' (by decide)]
  rw [toQuoted, readQuotedToken, noteKey_eq place.candidates]
  change (do return here.noted.accept false (← readQuoted quote here.noted.cursor)) = _
  rw [noted_cursor, found]
  rfl

theorem Place.readHere_literal {more : List Char} {token : Token} {next : Cursor}
    (place : here.Place kinds levels allowed column ('|' :: more))
    (found : readBlock true here.indent here.cursor = .ok (token, next)) :
    here.readHere = .ok (here.accept true (token, next)) := by
  have left : here.cursor = ⟨'|' :: more, here.cursor.mark⟩ := by rw [← place.rest]
  have marked (c : Char) (other : c ≠ '|') : here.cursor.atMarker c = false := by
    rw [left]
    exact Cursor.not_atMarker (fun start => other (List.cons_prefix_cons.mp start).1) _
  have flow := inFlow_of_candidates place.candidates
  have idle : here.dropCandidate = .ok here := by simp [dropCandidate, place.candidates]
  have toBlock : here.readHere = here.readBlockToken true := by
    rw [readHere]
    simp [place.rest, flow, marked '-' (by decide), marked '.' (by decide)]
  rw [toBlock, readBlockToken, idle]
  change (do return here.accept true (← readBlock true here.indent here.cursor)) = _
  rw [found]
  rfl

end Places

section Texts

variable {scan : Scan} {kinds : List TokenKind} {levels : List Int} {allowed cut : Bool}
  {top column n : Nat} {rest : List Char}

/-- A plain text is read with what follows up to the next token. -/
theorem Comes.exists_plain {text : List Char}
    (comes : scan.Comes kinds (top :: levels) allowed column
      (text ++ (cutEnd cut ['\n'] ++ (spaces n ++ rest))))
    (word : PlainWord text) (inside : top < column) (follows : Follows cut top n rest) :
    ∃ next, scan.Step next ∧
      next.Comes (kinds ++ [.scalar text .plain]) (top :: levels) true n rest := by
  obtain ⟨c, more, shape, -⟩ := word.starts
  obtain ⟨here, reaches, place⟩ := comes.exists_place (word.atToken _) (by simp [shape]) (by omega)
  obtain ⟨broken, after, ends, line, length, leads⟩ :=
    follows.exists_endsPlain (here.cursor.mark.after text)
  have read := place.readHere_plain word (by omega) (.inl (by omega)) ends
  obtain ⟨next, reads, holds, cursor, allowed', idle, passed⟩ :=
    place.exists_accepted (by omega) read line (by simp)
  refine ⟨next, reaches.step comes.within.not_streamEnd reads ?_, holds.within _,
    leads next cursor allowed' idle passed⟩
  rw [cursor, place.rest, List.length_append, shape]
  simp only [List.length_cons]
  omega

/-- A quoted text ends at its line end. -/
theorem Comes.exists_quoted {quote : Char} {text written : List Char}
    (comes : scan.Comes kinds (top :: levels) allowed column
      (quote :: written ++ (cutEnd cut ['\n'] ++ (spaces n ++ rest))))
    (sign : quote = '\'' ∨ quote = '"')
    (found : ∀ after mark, after.head? ≠ some '\'' → ∃ stop : Mark, mark.line ≤ stop.line ∧
      readQuoted quote ⟨quote :: written ++ after, mark⟩ =
        .ok (⟨.scalar text .quoted, mark, stop⟩, ⟨after, stop⟩))
    (inside : top < column) (follows : Follows cut top n rest) :
    ∃ next, scan.Step next ∧
      next.Comes (kinds ++ [.scalar text .quoted]) (top :: levels) true n rest := by
  have token : AtToken (quote :: written ++ (cutEnd cut ['\n'] ++ (spaces n ++ rest))) := by
    rw [List.cons_append, atToken_cons]
    rcases sign with rfl | rfl <;> decide
  obtain ⟨here, reaches, place⟩ := comes.exists_place token (by simp) (by omega)
  have other : (cutEnd cut ['\n'] ++ (spaces n ++ rest)).head? ≠ some '\'' := by
    cases cut with
    | false => simp [cutEnd]
    | true =>
      obtain ⟨rfl, rfl⟩ := follows.last rfl
      simp [cutEnd]
  obtain ⟨stop, line, reads⟩ := found _ here.cursor.mark other
  have read := place.readHere_quoted sign (by rwa [← place.rest] at reads)
  obtain ⟨next, reads, holds, cursor, -, idle, -⟩ :=
    place.exists_accepted (by omega) read line (by simp)
  refine ⟨next, reaches.step comes.within.not_streamEnd reads ?_, holds.within _,
    follows.leads idle cursor⟩
  rw [cursor, place.rest]
  simp only [List.cons_append, List.length_cons, List.length_append]
  omega

/-- A literal block takes the blank lines and the indentation after it along. -/
theorem Comes.exists_literal {text : List Char}
    (comes : scan.Comes kinds (top :: levels) allowed column
      (cutEnd cut (literalBlock (top + 2) text) ++ (spaces n ++ rest)))
    (filled : text ≠ []) (holds : literalHolds text = true)
    (last : cut = true → ∀ c ∈ text.getLast?, isBreak c = false)
    (inside : top < column) (follows : Follows cut top n rest) :
    ∃ next, scan.Step next ∧
      next.Comes (kinds ++ [.scalar text .block]) (top :: levels) true n rest := by
  obtain ⟨more, shape⟩ := exists_cutEnd_literalBlock cut (top + 2) text
  rw [shape, List.cons_append] at comes
  have token : AtToken ('|' :: (more ++ (spaces n ++ rest))) := by
    rw [atToken_cons]
    decide
  obtain ⟨here, reaches, place⟩ := comes.exists_place token (List.cons_ne_nil _ _) (by omega)
  obtain ⟨stop, after, found, shorter, leads⟩ : ∃ (stop : Mark) (after : Cursor),
      readBlock true top here.cursor =
        .ok (⟨.scalar text .block, here.cursor.mark, stop⟩, after) ∧
      after.rest.length < ('|' :: (more ++ (spaces n ++ rest))).length ∧
      ∀ scan : Scan, scan.cursor = after → scan.keyAllowed = true → scan.candidates = [none] →
        scan.Leads true n rest := by
    have left : here.cursor =
        ⟨cutEnd cut (literalBlock (top + 2) text) ++ (spaces n ++ rest), here.cursor.mark⟩ := by
      rw [shape, List.cons_append, ← place.rest]
    rw [left]
    cases cut with
    | false =>
      obtain ⟨stop, next, moved, found⟩ :=
        readBlock_literal filled holds follows.left follows.token.atWord here.cursor.mark
      refine ⟨stop, _, found, ?_, fun scan cursor allowed none => ?_⟩
      · simp only [List.length_append, List.length_cons]
        omega
      · have leads := Leads.blanks (k := 0) none allowed cursor
        simpa [moved] using leads
    | true =>
      obtain ⟨rfl, rfl⟩ := follows.last rfl
      obtain ⟨stop, next, found⟩ :=
        @readBlock_literal_cut top text filled holds (last rfl) here.cursor.mark
      refine ⟨stop, ⟨[], next⟩, by simpa [cutEnd] using found, by simp,
        fun scan cursor allowed none =>
          .finish ⟨_, none, fun _ mem => absurd mem (Option.not_mem_none _)⟩ (by rw [cursor])⟩
  have read := place.readHere_literal (by rwa [place.toHolds.indent])
  obtain ⟨next, settled, holds, cursor, allowed', kept⟩ := place.toHolds.exists_marked
    place.candidates ⟨.scalar text .block, here.cursor.mark, stop⟩ after true (by simp)
  refine ⟨next, reaches.step comes.within.not_streamEnd ⟨_, read, settled⟩ ?_, holds.within _,
    leads next cursor allowed' kept⟩
  rw [cursor, place.rest]
  exact shorter

end Texts

end Scan

end CiTranslate.Yaml
