import CiTranslate.Proofs.Yaml.Style
import CiTranslate.Yaml.Token.Reader
import Mathlib.Logic.Relation

/-!
Steps of the token reader on texts in block form.

Between two tokens, what was read is seen as one list of tokens, settled or not, and the columns of
the blocks that are open (`Scan.Holds`). A step passes over blanks to the next token
(`Scan.Leads`), closes the blocks that stand right of it, and reads it (`Scan.Place`). Blocks that
the next token is going to close count as closed already (`Scan.Within`).
-/

namespace CiTranslate.Yaml

/-- The text ends or goes on with something that no blank, comment or mark is. -/
def AtToken (rest : List Char) : Prop :=
  ∀ c ∈ rest.head?, isBlankOrBreak c = false ∧ c ≠ '#' ∧ c ≠ byteOrderMark

theorem AtToken.nil : AtToken [] := fun _ mem => absurd mem (Option.not_mem_none _)

theorem atToken_cons {c : Char} {rest : List Char} :
    AtToken (c :: rest) ↔ isBlankOrBreak c = false ∧ c ≠ '#' ∧ c ≠ byteOrderMark := by
  simp [AtToken]

theorem AtToken.atWord {rest : List Char} (token : AtToken rest) : AtWord rest :=
  fun c mem => (token c mem).1

namespace Scan

/-! ### What was read -/

/-- All tokens so far. -/
def tokens (scan : Scan) : List Token := scan.settled.reverse ++ scan.pending

/-- The columns of the open blocks, the innermost first. -/
def levels (scan : Scan) : List Int := scan.indent :: scan.outer

/-- What was read, and the blocks that are open. -/
structure Holds (scan : Scan) (kinds : List TokenKind) (levels : List Int) : Prop where
  read : scan.tokens.map Token.kind = kinds
  blocks : scan.levels = levels
  counted : scan.settledCount = scan.settled.length
  unended : TokenKind.streamEnd ∉ kinds

section Holds

variable {scan : Scan} {kinds : List TokenKind} {levels : List Int}

theorem Holds.indent {l : Int} {outer : List Int} (holds : scan.Holds kinds (l :: outer)) :
    scan.indent = l := (List.cons.inj holds.blocks).1

theorem Holds.outer {l : Int} {outer : List Int} (holds : scan.Holds kinds (l :: outer)) :
    scan.outer = outer := (List.cons.inj holds.blocks).2

/-- A token is added last. -/
theorem Holds.accept (holds : scan.Holds kinds levels) (keyAllowed : Bool) (read : Token × Cursor)
    (unended : read.1.kind ≠ .streamEnd) :
    (scan.accept keyAllowed read).Holds (kinds ++ [read.1.kind]) levels where
  read := by
    rw [← holds.read]
    simp [Scan.accept, push, tokens]
  blocks := holds.blocks
  counted := holds.counted
  unended := by simpa using ⟨holds.unended, unended.symm⟩

/-- Candidates and what a key depends on have no part in what was read. -/
theorem Holds.congr (holds : scan.Holds kinds levels) (other : Scan)
    (settled : other.settled = scan.settled) (count : other.settledCount = scan.settledCount)
    (pending : other.pending = scan.pending) (indent : other.indent = scan.indent)
    (outer : other.outer = scan.outer) : other.Holds kinds levels where
  read := by rw [tokens, settled, pending]; exact holds.read
  blocks := by rw [Scan.levels, indent, outer]; exact holds.blocks
  counted := by rw [settled, count]; exact holds.counted
  unended := holds.unended

end Holds

/-! ### Settling -/

/-- Nothing is lost where no key that has to be there is missing. -/
theorem dropStale_eq {scan : Scan}
    (calm : ∀ c, some c ∈ scan.candidates → c.required = true →
      isStale c scan.cursor.mark = false) :
    scan.dropStale = .ok { scan with
      candidates := scan.candidates.map (·.filter fun c => !isStale c scan.cursor.mark) } := by
  have none : scan.candidates.reverse.filterMap (·.filter fun c =>
      c.required && isStale c scan.cursor.mark) = [] := by
    refine List.filterMap_eq_nil_iff.mpr fun candidate mem => ?_
    cases candidate with
    | none => rfl
    | some c =>
      have passed := calm c (List.mem_reverse.mp mem)
      refine Option.filter_eq_none_iff.mpr fun d own => ?_
      cases own
      cases required : c.required with
      | false => simp
      | true => simp [passed required]
  rw [dropStale]
  simp only [none]

theorem dropStale_of_fresh {scan : Scan}
    (fresh : ∀ c, some c ∈ scan.candidates → isStale c scan.cursor.mark = false) :
    scan.dropStale = .ok scan := by
  have all : scan.candidates.map (·.filter fun c => !isStale c scan.cursor.mark) =
      scan.candidates := by
    refine (List.map_congr_left fun candidate mem => ?_).trans (List.map_id _)
    cases candidate with
    | none => rfl
    | some c => exact Option.filter_some_pos (by simp [fresh c mem])
  rw [dropStale_eq fun c mem _ => fresh c mem, all]

/-- Pending tokens are settled up to a place where a key may still start. -/
theorem exists_settlePending (pending : List Token) (scan : Scan)
    (counted : scan.settledCount = scan.settled.length) :
    ∃ settled count left, settlePending pending scan =
        { scan with settled := settled, settledCount := count, pending := left } ∧
      settled.reverse ++ left = scan.settled.reverse ++ pending ∧ count = settled.length ∧
      (∀ c, some c ∈ scan.candidates → scan.settledCount ≤ c.number → count ≤ c.number) ∧
      ((∀ c, some c ∉ scan.candidates) → left = []) := by
  induction pending generalizing scan with
  | nil =>
    exact ⟨scan.settled, scan.settledCount, [], rfl, rfl, counted, fun _ _ early => early,
      fun _ => rfl⟩
  | cons token pending ih =>
    rw [settlePending]
    split
    · next key =>
      refine ⟨scan.settled, scan.settledCount, token :: pending, rfl, rfl, counted,
        fun _ _ early => early, fun none => ?_⟩
      obtain ⟨candidate, mem, number⟩ := List.any_eq_true.mp key
      cases candidate with
      | none => cases number
      | some c => exact absurd mem (none c)
    · next noKey =>
      obtain ⟨settled, count, left, shape, whole, counted', early, all⟩ := ih
        { scan with settled := token :: scan.settled, settledCount := scan.settledCount + 1 }
        (by simp [counted])
      refine ⟨settled, count, left, shape, by simpa using whole, counted', fun c mem before => ?_,
        all⟩
      refine early c mem (Nat.lt_of_le_of_ne before fun same => noKey ?_)
      exact List.any_eq_true.mpr ⟨some c, mem, by simp [same]⟩

/-- Settling gives up stale candidates and changes nothing that was read. -/
theorem exists_settle {scan : Scan} {kinds : List TokenKind} {levels : List Int}
    (holds : scan.Holds kinds levels) (waiting : scan.pending ≠ [])
    (calm : ∀ c, some c ∈ scan.candidates → c.required = true →
      isStale c scan.cursor.mark = false) :
    ∃ next, scan.settle = .ok next ∧ next.Holds kinds levels ∧ next.cursor = scan.cursor ∧
      next.keyAllowed = scan.keyAllowed ∧
      next.candidates = scan.candidates.map (·.filter fun c => !isStale c scan.cursor.mark) ∧
      (∀ c, some c ∈ next.candidates → scan.settledCount ≤ c.number →
        next.settledCount ≤ c.number) ∧
      ((∀ c, some c ∉ next.candidates) → next.pending = []) := by
  obtain ⟨settled, count, left, shape, whole, counted, early, all⟩ := exists_settlePending
    scan.pending
    { scan with candidates := scan.candidates.map (·.filter fun c => !isStale c scan.cursor.mark) }
    holds.counted
  have filled : scan.pending.isEmpty = false := by simpa using waiting
  have next : scan.settle = .ok
      { scan with
        candidates := scan.candidates.map (·.filter fun c => !isStale c scan.cursor.mark)
        settled := settled, settledCount := count, pending := left } := by
    rw [settle, filled, dropStale_eq calm]
    exact congrArg Except.ok shape
  refine ⟨_, next, ⟨?_, holds.blocks, counted, holds.unended⟩, rfl, rfl, rfl, early, all⟩
  rw [← holds.read, tokens, tokens]
  exact congrArg (List.map Token.kind) whole

/-! ### Passing over blanks -/

/-- Within a line, blanks are passed over up to the next token. -/
theorem skipBlank_here (scan : Scan) {k : Nat} {rest : List Char} {mark : Mark}
    (token : AtToken rest) (left : scan.cursor = ⟨spaces k ++ rest, mark⟩) (steps : Nat) :
    scan.skipBlank (steps + 1) = { scan with cursor := ⟨rest, mark.after (spaces k)⟩ } := by
  have noMark : (decide (mark.column = 0) && (spaces k ++ rest).head? == some byteOrderMark) =
      false := by
    rw [Bool.and_eq_false_iff, beq_eq_false_iff_ne]
    refine .inr ?_
    cases k with
    | zero => exact fun mem => (token byteOrderMark mem).2.2 rfl
    | succ k =>
      rw [spaces_succ, List.cons_append, List.head?_cons]
      decide
  have passed := @Cursor.skipWhile_append (fun c => c == ' ' ||
      ((scan.inFlow || !scan.keyAllowed) && c == '\t')) (spaces k) rest
    (fun c mem => by simp [eq_of_mem_spaces mem]) (fun c mem => by
      have visible := (token c mem).1
      simp only [isBlankOrBreak, isSpaceOrTab, Bool.or_eq_false_iff] at visible
      simp [visible.1]) mark
  have noComment : (rest.head? == some '#') = false :=
    beq_eq_false_iff_ne.mpr fun mem => (token '#' mem).2.1 rfl
  have noBreak : rest.head?.any isBreak = false := by
    cases first : rest.head? with
    | none => rfl
    | some c => exact (not_isBlankOrBreak (token c first).1).2
  rw [skipBlank]
  simp only [left, noMark, passed, noComment, noBreak, Bool.false_eq_true, if_false]

/-- A line end is passed over together with the indentation after it, and then a key may start. -/
theorem skipBlank_line {scan : Scan} {n : Nat} {rest : List Char} {mark : Mark}
    (token : AtToken rest) (outside : scan.inFlow = false)
    (left : scan.cursor = ⟨'\n' :: (spaces n ++ rest), mark⟩) (steps : Nat) :
    scan.skipBlank (steps + 2) =
      { scan with
        cursor := ⟨rest, (mark.afterBreaks ['\n']).after (spaces n)⟩, keyAllowed := true } := by
  have stays := @Cursor.skipWhile_of_stop (fun c => c == ' ' ||
      ((scan.inFlow || !scan.keyAllowed) && c == '\t')) ('\n' :: (spaces n ++ rest))
    (by simp) mark
  have noMark :
      (decide (mark.column = 0) && ('\n' :: (spaces n ++ rest)).head? == some byteOrderMark) =
      false := by
    rw [Bool.and_eq_false_iff]
    exact .inr rfl
  have next := skipBlank_here { scan with
    cursor := ⟨spaces n ++ rest, mark.afterBreaks ['\n']⟩, keyAllowed := true } token rfl steps
  have first : (⟨'\n' :: (spaces n ++ rest), mark⟩ : Cursor).skipBreak =
      ⟨spaces n ++ rest, mark.afterBreaks ['\n']⟩ := Cursor.skipBreak_cons (.inl rfl) _ mark
  rw [skipBlank]
  simp only [left, noMark, Bool.false_eq_true, if_false, stays]
  have noComment : (('\n' :: (spaces n ++ rest)).head? == some '#') = false := rfl
  have lineEnd : ('\n' :: (spaces n ++ rest)).head?.any isBreak = true := rfl
  simpa only [noComment, lineEnd, Bool.false_eq_true, if_false, if_true, first, outside,
    Bool.not_false, Bool.or_true] using next

/-! ### Closing blocks -/

theorem closeBlocksFrom_of_le {scan : Scan} {column : Int} (stays : scan.indent ≤ column)
    (around : List Int) : closeBlocksFrom column around scan = scan := by
  cases around with
  | nil => rfl
  | cons parent more => exact if_pos stays

/-- The blocks right of a column are closed, and those at it or left of it stay. -/
theorem closeBlocksFrom_eq {column : Int} {deeper : List Int} {l : Int} {outer : List Int}
    {scan : Scan} (levels : scan.levels = deeper ++ l :: outer) (right : ∀ d ∈ deeper, column < d)
    (stays : l ≤ column) :
    closeBlocksFrom column scan.outer scan =
      { scan with
        indent := l, outer
        pending := scan.pending ++
          deeper.map fun _ => ⟨.blockEnd, scan.cursor.mark, scan.cursor.mark⟩ } := by
  induction deeper generalizing scan with
  | nil =>
    obtain ⟨rfl, rfl⟩ := List.cons.inj levels
    rw [closeBlocksFrom_of_le stays, List.map_nil, List.append_nil]
  | cons d deeper ih =>
    obtain ⟨rfl, around⟩ := List.cons.inj levels
    change scan.outer = deeper ++ l :: outer at around
    obtain ⟨parent, more, shape⟩ : ∃ parent more, deeper ++ l :: outer = parent :: more :=
      List.exists_cons_of_ne_nil (by simp)
    have inside : ¬scan.indent ≤ column :=
      Int.not_le.mpr (right scan.indent (List.mem_cons_self ..))
    let next : Scan := { scan with indent := parent, outer := more }.push
      ⟨.blockEnd, scan.cursor.mark, scan.cursor.mark⟩
    have later := @ih next shape.symm fun e mem => right e (List.mem_cons_of_mem _ mem)
    rw [around, shape, closeBlocksFrom, if_neg inside]
    refine later.trans ?_
    simp [next, push]

/-- What was read when the blocks right of a column, with as many ends, count as closed. -/
def Within (scan : Scan) (column : Int) (kinds : List TokenKind) (levels : List Int) : Prop :=
  ∃ inner deeper, scan.Holds inner (deeper ++ levels) ∧
    inner ++ deeper.map (fun _ => .blockEnd) = kinds ∧ ∀ d ∈ deeper, column < d

section Within

variable {scan : Scan} {column : Int} {kinds : List TokenKind} {levels : List Int}

theorem Holds.within (holds : scan.Holds kinds levels) (column : Int) :
    scan.Within column kinds levels :=
  ⟨kinds, [], holds, by simp, fun _ mem => absurd mem List.not_mem_nil⟩

/-- A block ends before a token that stands left of it. -/
theorem Within.close {l : Int} (within : scan.Within column kinds (l :: levels))
    (left : column < l) :
    scan.Within column (kinds ++ [.blockEnd]) levels := by
  obtain ⟨inner, deeper, holds, rfl, right⟩ := within
  refine ⟨inner, deeper ++ [l], ?_, by simp, fun d mem => ?_⟩
  · rw [List.append_assoc, List.singleton_append]
    exact holds
  · rcases List.mem_append.mp mem with mem | mem
    · exact right d mem
    · exact List.mem_singleton.mp mem ▸ left

theorem Within.congr (within : scan.Within column kinds levels) (other : Scan)
    (settled : other.settled = scan.settled) (count : other.settledCount = scan.settledCount)
    (pending : other.pending = scan.pending) (indent : other.indent = scan.indent)
    (outer : other.outer = scan.outer) : other.Within column kinds levels := by
  obtain ⟨inner, deeper, holds, shape⟩ := within
  exact ⟨inner, deeper, holds.congr other settled count pending indent outer, shape⟩

theorem Within.closeBlocks {l : Int} (within : scan.Within column kinds (l :: levels))
    (outside : scan.inFlow = false) (stays : l ≤ column) :
    ∃ next, scan.closeBlocks column = next ∧ next.Holds kinds (l :: levels) ∧
      next.cursor = scan.cursor ∧ next.keyAllowed = scan.keyAllowed ∧
      next.candidates = scan.candidates := by
  obtain ⟨inner, deeper, holds, rfl, right⟩ := within
  have closed : scan.closeBlocks column = { scan with
      indent := l, outer := levels
      pending := scan.pending ++
        deeper.map fun _ => ⟨.blockEnd, scan.cursor.mark, scan.cursor.mark⟩ } := by
    rw [Scan.closeBlocks, outside, if_neg Bool.false_ne_true]
    exact closeBlocksFrom_eq holds.blocks right stays
  refine ⟨_, closed, ⟨?_, rfl, holds.counted, ?_⟩, rfl, rfl, rfl⟩
  · have inside := holds.read
    simp only [tokens, List.map_append] at inside ⊢
    simp [← inside]
  · simpa using holds.unended

end Within

/-! ### Places -/

/-- A key may or may not have started in the line that was read last, but none has to. -/
def Idle (scan : Scan) : Prop :=
  ∃ candidate, scan.candidates = [candidate] ∧
    ∀ c ∈ candidate, c.required = false ∧ c.mark.line ≤ scan.cursor.mark.line

/-- How the reader comes to a token in some column, where a key may start or not: over blanks,
over the end of a line, or to the end of the text. -/
inductive Leads (scan : Scan) : Bool → Nat → List Char → Prop
  | blanks {allowed : Bool} {k : Nat} {rest : List Char} {mark : Mark}
      (none : scan.candidates = [none]) (key : scan.keyAllowed = allowed)
      (left : scan.cursor = ⟨spaces k ++ rest, mark⟩) : Leads scan allowed (mark.column + k) rest
  | line {n : Nat} {rest : List Char} {mark : Mark} (idle : scan.Idle)
      (left : scan.cursor = ⟨'\n' :: (spaces n ++ rest), mark⟩) : Leads scan true n rest
  | finish {n : Nat} (idle : scan.Idle) (left : scan.cursor.rest = []) : Leads scan true n []

/-- The next token, where blocks right of it count as closed. -/
structure Comes (scan : Scan) (kinds : List TokenKind) (levels : List Int) (allowed : Bool)
    (column : Nat) (rest : List Char) : Prop where
  within : scan.Within column kinds levels
  leads : scan.Leads allowed column rest

/-- A token starts here. -/
structure Place (scan : Scan) (kinds : List TokenKind) (levels : List Int) (allowed : Bool)
    (column : Nat) (rest : List Char) : Prop extends Holds scan kinds levels where
  candidates : scan.candidates = [none]
  allowed : scan.keyAllowed = allowed
  column : scan.cursor.mark.column = column
  rest : scan.cursor.rest = rest

theorem inFlow_of_candidates {scan : Scan} {candidate : Option KeyCandidate}
    (one : scan.candidates = [candidate]) : scan.inFlow = false := by
  simp [inFlow, one]

/-- The place where the next token starts, after all that stands before it. -/
def Reaches (scan here : Scan) : Prop :=
  (∀ lines, 2 ≤ lines → scan.readNext lines = here.readHere) ∧
    here.cursor.rest.length ≤ scan.cursor.rest.length

theorem readNext_eq {scan here : Scan} {lines : Nat} (found : Scan)
    (passed : (scan.skipBlank lines).dropStale = .ok found)
    (closed : found.closeBlocks found.cursor.mark.column = here) :
    scan.readNext lines = here.readHere := by
  rw [← closed, readNext, passed]
  rfl

/-- A token may start right here. -/
theorem readNext_here {scan : Scan} {rest : List Char} (left : scan.cursor.rest = rest)
    (token : AtToken rest)
    (fresh : ∀ c, some c ∈ scan.candidates → isStale c scan.cursor.mark = false)
    (stays : scan.inFlow = true ∨ scan.indent ≤ scan.cursor.mark.column) (lines : Nat) :
    scan.readNext (lines + 1) = scan.readHere := by
  have passed : scan.skipBlank (lines + 1) = scan := by
    have here := @skipBlank_here scan 0 rest scan.cursor.mark token (by rw [← left]; rfl) lines
    rw [here, ← left]
    rfl
  refine readNext_eq scan (by rw [passed, dropStale_of_fresh fresh]) ?_
  unfold closeBlocks
  rcases stays with inside | left
  · exact if_pos inside
  · split
    · rfl
    · exact closeBlocksFrom_of_le left _

/-- Where the way leads to a token, that token is next. -/
theorem Comes.exists_place {scan : Scan} {allowed : Bool} {n : Nat} {rest : List Char}
    {kinds : List TokenKind} {l : Int} {levels : List Int}
    (comes : scan.Comes kinds (l :: levels) allowed n rest) (token : AtToken rest)
    (more : rest ≠ []) (stays : l ≤ n) :
    ∃ here, scan.Reaches here ∧ here.Place kinds (l :: levels) allowed n rest := by
  obtain ⟨within, leads⟩ := comes
  cases leads with
  | @blanks _ k _ mark none allowed left =>
    let found : Scan := { scan with cursor := ⟨rest, mark.after (spaces k)⟩ }
    obtain ⟨here, closed, holds, cursor, allowed', candidates⟩ :=
      (within.congr found rfl rfl rfl rfl rfl).closeBlocks (inFlow_of_candidates none) stays
    refine ⟨here, ⟨fun lines enough => ?_, ?_⟩, holds, by rw [candidates]; exact none,
      by rw [allowed']; exact allowed, by rw [cursor]; simp [found],
      by rw [cursor]⟩
    · obtain ⟨lines, rfl⟩ : ∃ more, lines = more + 1 := ⟨lines - 1, by omega⟩
      refine readNext_eq found ?_ ?_
      · rw [skipBlank_here scan token left, dropStale_eq (by simp [none])]
        simp [none, found]
      · simpa [found] using closed
    · rw [cursor, left]
      simp [found]
  | @line _ _ mark idle left =>
    obtain ⟨candidate, one, free⟩ := idle
    have flow := inFlow_of_candidates one
    let found : Scan := { scan with
      cursor := ⟨rest, (mark.afterBreaks ['\n']).after (spaces n)⟩, keyAllowed := true
      candidates := [none] }
    have column : found.cursor.mark.column = n := by simp [found, Mark.column_afterBreaks]
    obtain ⟨here, closed, holds, cursor, allowed', candidates⟩ :=
      (within.congr found rfl rfl rfl rfl rfl).closeBlocks rfl stays
    refine ⟨here, ⟨fun lines enough => ?_, ?_⟩, holds, by rw [candidates], by rw [allowed'],
      by rw [cursor, column], by rw [cursor]⟩
    · obtain ⟨lines, rfl⟩ : ∃ more, lines = more + 2 := ⟨lines - 2, by omega⟩
      refine readNext_eq found ?_ (column ▸ closed)
      rw [skipBlank_line token flow left, dropStale_eq (fun c mem required => ?_)]
      · have stale : ∀ c ∈ candidate,
            isStale c ((mark.afterBreaks ['\n']).after (spaces n)) = true := by
          intro c mem
          have line := (free c mem).2
          rw [left] at line
          simp only [isStale, Mark.line_after, Mark.line_afterBreaks, List.length_singleton,
            Bool.or_eq_true, decide_eq_true_eq]
          exact .inl (Nat.lt_succ_of_le line)
        have gone : candidate.filter (fun c =>
            !isStale c ((mark.afterBreaks ['\n']).after (spaces n))) = none :=
          Option.filter_eq_none_iff.mpr fun c mem => by simp [stale c mem]
        simp [one, gone, found]
      · simp only [one, List.mem_singleton] at mem
        rw [(free c mem.symm).1] at required
        cases required
    · rw [cursor, left]
      simp [found]
      omega
  | finish idle left => exact absurd rfl more

end Scan

end CiTranslate.Yaml
