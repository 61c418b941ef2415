import CiTranslate.Proofs.Yaml.Layout

/-!
The tokens of a whole text: the start that a document may be marked with, its fields, and the end
of the text, at which all blocks are closed.
-/

namespace CiTranslate.Yaml

namespace Scan

variable {scan : Scan} {kinds : List TokenKind}

/-! ### The end of a text -/

theorem Within.weaken {column lower : Int} {levels : List Int}
    (within : scan.Within column kinds levels) (le : lower ≤ column) :
    scan.Within lower kinds levels := by
  obtain ⟨inner, deeper, holds, shape, right⟩ := within
  exact ⟨inner, deeper, holds, shape, fun d mem => Int.lt_of_le_of_lt le (right d mem)⟩

/-- Closing some of the blocks changes nothing if all of them count as closed. -/
theorem Within.closeBlocksFrom (column : Int) {around : List Int} (known : scan.outer = around)
    (within : scan.Within (-1) kinds [-1]) :
    (closeBlocksFrom column around scan).Within (-1) kinds [-1] ∧
      (closeBlocksFrom column around scan).cursor = scan.cursor ∧
      (closeBlocksFrom column around scan).candidates = scan.candidates := by
  induction around generalizing scan with
  | nil => exact ⟨within, rfl, rfl⟩
  | cons parent around ih =>
    rw [Scan.closeBlocksFrom]
    split
    · exact ⟨within, rfl, rfl⟩
    · let next : Scan := { scan with indent := parent, outer := around }.push
        ⟨.blockEnd, scan.cursor.mark, scan.cursor.mark⟩
      have closed : next.Within (-1) kinds [-1] := by
        obtain ⟨inner, deeper, holds, rfl, right⟩ := within
        cases deeper with
        | nil =>
          have outer : scan.outer = [] := holds.outer
          rw [known] at outer
          cases outer
        | cons d deeper =>
          refine ⟨inner ++ [.blockEnd], deeper, ⟨?_, ?_, holds.counted, ?_⟩, by simp, fun e mem =>
            right e (List.mem_cons_of_mem _ mem)⟩
          · simp [next, tokens, push, ← holds.read]
          · have outer : scan.outer = deeper ++ [-1] := holds.outer
            rw [← outer, known]
            rfl
          · simpa using holds.unended
      exact ih rfl closed

/-- What leads to the end of the text leaves no key that has to be there. -/
theorem Leads.exists_end {n : Nat} (leads : scan.Leads true n []) {lines : Nat}
    (enough : 2 ≤ lines) :
    ∃ cursor keyAllowed candidate, (scan.skipBlank lines).dropStale =
        .ok { scan with cursor := cursor, keyAllowed := keyAllowed, candidates := [candidate] } ∧
      cursor.rest = [] ∧ ∀ c ∈ candidate, c.required = false := by
  obtain ⟨lines, rfl⟩ : ∃ more, lines = more + 2 := ⟨lines - 2, by omega⟩
  have dropped (cursor : Cursor) (keyAllowed : Bool) (candidate : Option KeyCandidate)
      (one : scan.candidates = [candidate]) (free : ∀ c ∈ candidate, c.required = false) :
      dropStale { scan with cursor := cursor, keyAllowed := keyAllowed } =
        .ok { scan with
          cursor := cursor, keyAllowed := keyAllowed
          candidates := [candidate.filter fun c => !isStale c cursor.mark] } := by
    rw [dropStale_eq fun c mem required => ?_]
    · simp [one]
    · simp only [one, List.mem_singleton] at mem
      rw [free c mem.symm] at required
      cases required
  have kept {candidate : Option KeyCandidate} {mark : Mark}
      (free : ∀ c ∈ candidate, c.required = false) :
      ∀ c ∈ candidate.filter fun c => !isStale c mark, c.required = false :=
    fun c mem => free c (Option.mem_filter_iff.mp mem).1
  cases leads with
  | blanks empty key left =>
    have free : ∀ c ∈ (none : Option KeyCandidate), c.required = false :=
      fun _ mem => absurd mem (Option.not_mem_none _)
    exact ⟨_, scan.keyAllowed, _, by
      rw [skipBlank_here scan AtToken.nil left]
      exact dropped _ scan.keyAllowed _ empty free, rfl, kept free⟩
  | line idle left =>
    obtain ⟨candidate, one, free⟩ := idle
    exact ⟨_, true, _, by
      rw [skipBlank_line AtToken.nil (inFlow_of_candidates one) left]
      exact dropped _ _ _ one fun c mem => (free c mem).1, rfl, kept fun c mem => (free c mem).1⟩
  | finish idle left =>
    obtain ⟨candidate, one, free⟩ := idle
    have left : scan.cursor = ⟨spaces 0 ++ [], scan.cursor.mark⟩ := by
      rw [← left]
      rfl
    exact ⟨_, scan.keyAllowed, _, by
      rw [skipBlank_here scan AtToken.nil left]
      exact dropped _ scan.keyAllowed _ one fun c mem => (free c mem).1, rfl,
      kept fun c mem => (free c mem).1⟩

theorem readStreamEnd_eq {candidate : Option KeyCandidate} (within : scan.Within (-1) kinds [-1])
    (one : scan.candidates = [candidate]) (free : ∀ c ∈ candidate, c.required = false) :
    ∃ before : Scan, before.Holds kinds [-1] ∧ before.candidates = [none] ∧
      scan.readStreamEnd = .ok (before.acceptMark false 0 .streamEnd) := by
  let mark := scan.cursor.mark
  let ending : Scan := { scan with cursor := { scan.cursor with
    mark := if mark.column = 0 then mark else ⟨mark.index, mark.line + 1, 0⟩ } }
  obtain ⟨next, closed, holds, -, -, candidates⟩ :=
    (within.congr ending rfl rfl rfl rfl rfl).closeBlocks (inFlow_of_candidates one)
      (Int.le_refl (-1))
  have one : next.candidates = [candidate] := candidates.trans one
  have dropped : ∃ before : Scan, next.dropCandidate = .ok before ∧ before.Holds kinds [-1] ∧
      before.candidates = [none] := by
    cases candidate with
    | none => exact ⟨next, by simp [dropCandidate, one], holds, one⟩
    | some c =>
      exact ⟨{ next with candidates := [none] }, by simp [dropCandidate, one, free c rfl],
        holds.congr _ rfl rfl rfl rfl rfl, rfl⟩
  obtain ⟨before, found, holds, empty⟩ := dropped
  refine ⟨before, holds, empty, ?_⟩
  change (ending.closeBlocks (-1)).dropCandidate.map _ = _
  rw [closed, found]
  rfl

/-- The end of the text is settled together with all that was read. -/
theorem exists_settle_streamEnd {before : Scan} (holds : before.Holds kinds [-1])
    (empty : before.candidates = [none]) :
    ∃ next start stop rest, (before.acceptMark false 0 .streamEnd).settle = .ok next ∧
      next.settled = ⟨.streamEnd, start, stop⟩ :: rest ∧
      next.settled.reverse.map Token.kind = kinds ++ [.streamEnd] := by
  let read := before.acceptMark false 0 .streamEnd
  have all : read.settled.reverse ++ read.pending = before.tokens ++
      [⟨.streamEnd, before.cursor.mark, (before.cursor.skipMany 0).mark⟩] := by
    simp [read, acceptMark, accept, push, tokens]
  have dropped : read.dropStale = .ok read :=
    dropStale_of_fresh (by simp [read, acceptMark, accept, push, empty])
  obtain ⟨settled, count, left, shape, whole, -, -, nothing⟩ :=
    exists_settlePending read.pending read holds.counted
  obtain rfl : left = [] := nothing (by simp [read, acceptMark, accept, push, empty])
  rw [List.append_nil, all] at whole
  have reversed : settled = ⟨.streamEnd, before.cursor.mark, (before.cursor.skipMany 0).mark⟩ ::
      before.tokens.reverse := by
    rw [← List.reverse_inj, whole]
    simp
  refine ⟨{ read with settled := settled, settledCount := count, pending := [] }, _, _, _, ?_,
    reversed, ?_⟩
  · rw [settle, if_neg (by simp [acceptMark, accept, push])]
    exact (congrArg (Except.map _) dropped).trans (congrArg Except.ok shape)
  · rw [whole, List.map_append, holds.read]
    rfl

/-- At the end of the text all blocks are closed, and the tokens are settled. -/
theorem Comes.exists_end (comes : scan.Comes kinds [0, -1] true 0 []) {fuel : Nat}
    (enough : 2 ≤ fuel) :
    ∃ tokens, Tokens.readFrom fuel scan = ⟨tokens, none⟩ ∧
      tokens.map Token.kind = kinds ++ [.blockEnd, .streamEnd] := by
  obtain ⟨steps, rfl⟩ : ∃ steps, fuel = steps + 2 := ⟨fuel - 2, by omega⟩
  have within : scan.Within (-1) (kinds ++ [.blockEnd]) [-1] :=
    (comes.within.weaken (by decide)).close (by decide)
  obtain ⟨cursor, keyAllowed, candidate, found, ended, free⟩ := comes.leads.exists_end enough
  let last : Scan :=
    { scan with cursor := cursor, keyAllowed := keyAllowed, candidates := [candidate] }
  have whole : last.Within (-1) (kinds ++ [.blockEnd]) [-1] :=
    within.congr last rfl rfl rfl rfl rfl
  have flow : last.inFlow = false := inFlow_of_candidates rfl
  obtain ⟨closed, cursor', candidates⟩ :=
    whole.closeBlocksFrom last.cursor.mark.column rfl
  obtain ⟨before, holds, empty, read⟩ := readStreamEnd_eq closed candidates free
  obtain ⟨next, start, stop, rest, settled, shape, all⟩ := exists_settle_streamEnd holds empty
  have step : scan.readNext (steps + 2) = .ok (before.acceptMark false 0 .streamEnd) := by
    rw [readNext_eq last found rfl, closeBlocks, flow, if_neg Bool.false_ne_true, readHere, cursor',
      show last.cursor.rest = [] from ended]
    exact read
  refine ⟨next.settled.reverse, ?_, by simpa using all⟩
  rw [Tokens.readFrom]
  split
  · next shape => exact absurd rfl (within.not_streamEnd _ (shape ▸ List.mem_cons_self ..))
  · simp only [step, settled, Tokens.readFrom, shape]

end Scan

/-! ### Whole texts -/

/-- A document may be marked as one. -/
def startMark (started : Bool) : List Char := if started then "---\n".toList else []

def startKinds (started : Bool) : List TokenKind := if started then [.documentStart] else []

/-- The reader at the start of a text. -/
def Scan.start (text : List Char) : Scan :=
  { cursor := ⟨text, {}⟩, settled := [⟨.streamStart, {}, {}⟩], settledCount := 1 }

theorem Scan.comes_start (text : List Char) :
    (Scan.start text).Comes [.streamStart] [-1] true 0 text := by
  have holds : (Scan.start text).Holds [.streamStart] [-1] := ⟨rfl, rfl, rfl, by decide⟩
  exact ⟨holds.within _, Leads.blanks (k := 0) rfl rfl rfl⟩

/-- The start mark of a document is read as a token of its own. -/
theorem Scan.exists_started (started : Bool) (text : List Char) :
    ∃ next, (Scan.start (startMark started ++ text)).Steps next ∧
      next.Comes (.streamStart :: startKinds started) [-1] true 0 text := by
  cases started with
  | false => exact ⟨_, .refl, Scan.comes_start text⟩
  | true =>
    obtain ⟨here, reaches, place⟩ := (Scan.comes_start (startMark true ++ text)).exists_place
      (atToken_cons.mpr (by decide)) (List.cons_ne_nil _ _) (by decide)
    have shape : here.cursor = ⟨['-', '-', '-'] ++ '\n' :: text, here.cursor.mark⟩ := by
      rw [show ['-', '-', '-'] ++ '\n' :: text = startMark true ++ text from rfl, ← place.rest]
    have marked : here.cursor.atMarker '-' = true := by
      rw [shape]
      simp [Cursor.atMarker, place.column, atBlankOrEnd, isBreak]
    have passed : here.cursor.skipMany 3 =
        ⟨'\n' :: text, here.cursor.mark.after ['-', '-', '-']⟩ := by
      rw [shape]
      exact Cursor.skipMany_append ['-', '-', '-'] _ _
    have closed : here.closeBlocks (-1) = here := by
      rw [closeBlocks, inFlow_of_candidates place.candidates, if_neg Bool.false_ne_true]
      exact closeBlocksFrom_of_le (Int.le_of_eq place.toHolds.indent) _
    have idle : here.dropCandidate = .ok here := by simp [dropCandidate, place.candidates]
    have read : here.readHere = .ok (here.acceptMark false 3 .documentStart) := by
      rw [readHere]
      simp only [place.rest, startMark, if_true, marked, place.column]
      simp [readDocumentMarker, closed, idle, Except.map]
    obtain ⟨next, settled, holds, cursor, -, empty⟩ := place.toHolds.exists_marked place.candidates
      ⟨.documentStart, here.cursor.mark, (here.cursor.skipMany 3).mark⟩ (here.cursor.skipMany 3)
      false (by simp)
    rw [passed] at cursor
    refine ⟨next, .single (reaches.step (Scan.comes_start _).within.not_streamEnd
      ⟨_, read, settled⟩ ?_), holds.within _,
      .line (n := 0) ⟨_, empty, fun _ mem => absurd mem (Option.not_mem_none _)⟩ cursor⟩
    rw [cursor, place.rest]
    simp [startMark]

/-- The tokens of a written document are those of its data. -/
theorem exists_tokens (started cut : Bool) {field : String × Data} {fields : List (String × Data)}
    {text : String}
    (shape : text.toList =
      startMark started ++ cutEnd cut (writeDocument (.record (field :: fields))))
    (allowed : ∀ c ∈ text.toList, isAllowed c = true)
    (last : cut = true → EndsSolid (Data.lastTextOfFields? (field :: fields))) :
    ∃ tokens, Tokens.ofText text = ⟨tokens, none⟩ ∧
      tokens.map Token.kind = .streamStart :: startKinds started ++
        nodeKinds false (.record (field :: fields)) ++ [.streamEnd] := by
  have entry := @entryRead_fields 0 field fields fun other _ => tokensRead other.2
  obtain ⟨ready, first, comes⟩ := Scan.exists_started started
    (cutEnd cut (writeDocument (.record (field :: fields))))
  obtain ⟨ended, steps, comes⟩ := @EntryRead.reads _ _ _ _ _ entry _ _ (-1) [] 0 cut []
    (by simpa [writeDocument] using comes) (by decide) last
    ⟨Nat.le_refl _, AtToken.nil, fun _ => ⟨rfl, rfl⟩⟩
  obtain ⟨fuel, enough, run⟩ := Scan.Steps.readFrom (first.trans steps) (Nat.le_refl _)
  obtain ⟨tokens, found, kinds⟩ := Scan.Comes.exists_end comes (by omega : 2 ≤ fuel)
  refine ⟨tokens, ?_, by rw [kinds]; simp [nodeKinds, Scan.openKinds]⟩
  have all : text.toList.takeWhile isAllowed = text.toList := by
    have run := @takeWhile_run isAllowed text.toList [] allowed
      fun _ mem => absurd mem (Option.not_mem_none _)
    simpa using run
  rw [Tokens.ofText]
  simp only [all, String.length_toList, Nat.lt_irrefl, if_false]
  rw [← found, ← run, ← shape]
  simp only [Scan.start, String.length_toList]

end CiTranslate.Yaml
