import CiTranslate.Proofs.Groovy.Section

/-!
What a declaration of a stage looks like, and where none begins.

A declaration is the word `stage` with a name between two quotes and parentheses, of which the
name has no quote (`takeStage?_eq_some_iff`). A text is one section when it spells no declaration
(`sections_eq_iff`), and what follows a text can only complete one if it has the other
parenthesis (`declaresStage_append_iff`).

The declaration that is written for a name is read with the escapes of its literal
(`sections_declaration`). Between three quotes it is not read, as no name may begin with a quote:
a machine that looks at quotes after parentheses tells that nothing is declared (`watch`), and
tidying does not matter to it (`collapsesBlanks_watch`).
-/

namespace CiTranslate.Groovy

/-! ### The form of a declaration -/

/-- A declaration as it is spelled. The quotes may differ. -/
structure StageCall where
  /-- What stands between the word and the parenthesis. -/
  before : List Char
  /-- What stands between the parenthesis and the first quote. -/
  inside : List Char
  opening : Char
  name : List Char
  closing : Char
  /-- What stands between the second quote and the other parenthesis. -/
  after : List Char
  blankBefore : ∀ c ∈ before, Text.isBlank c = true
  blankInside : ∀ c ∈ inside, Text.isBlank c = true
  blankAfter : ∀ c ∈ after, Text.isBlank c = true
  quotedBefore : isQuote opening = true
  quotedAfter : isQuote closing = true
  named : name ≠ []
  unquoted : ∀ c ∈ name, isQuote c = false

theorem forall_not_isQuote_iff {text : List Char} :
    (∀ c ∈ text, isQuote c = false) ↔ '\'' ∉ text ∧ '"' ∉ text := by
  constructor
  · intro unquoted
    constructor
    · intro mem
      cases unquoted _ mem
    · intro mem
      cases unquoted _ mem
  · rintro ⟨single, double⟩ c mem
    refine Bool.or_eq_false_iff.mpr ⟨beq_eq_false_iff_ne.mpr ?_, beq_eq_false_iff_ne.mpr ?_⟩
    · rintro rfl
      exact single mem
    · rintro rfl
      exact double mem

theorem not_isBlank_of_isQuote {c : Char} (quote : isQuote c = true) : Text.isBlank c = false := by
  rcases Bool.or_eq_true_iff.mp quote with single | double
  · rw [eq_of_beq single]
    rfl
  · rw [eq_of_beq double]
    rfl

theorem not_isQuote_of_isBlank {c : Char} (blank : Text.isBlank c = true) : isQuote c = false := by
  refine Bool.eq_false_iff.mpr fun quote => ?_
  rw [not_isBlank_of_isQuote quote] at blank
  cases blank

namespace StageCall

/-- The declaration up to its first quote. -/
def front (call : StageCall) : List Char := stageWord ++ call.before ++ '(' :: call.inside

/-- The declaration from its first quote up to the other parenthesis. -/
def back (call : StageCall) : List Char :=
  call.opening :: (call.name ++ call.closing :: call.after)

def text (call : StageCall) : List Char := call.front ++ call.back ++ [')']

theorem not_isQuote_of_mem_front {call : StageCall} {c : Char} (mem : c ∈ call.front) :
    isQuote c = false := by
  have letters : (stageWord.all fun d => !isQuote d) = true := by decide
  rcases List.mem_append.mp mem with start | rest
  · rcases List.mem_append.mp start with letter | before
    · simpa using List.all_eq_true.mp letters c letter
    · exact not_isQuote_of_isBlank (call.blankBefore c before)
  · rcases List.mem_cons.mp rest with rfl | inside
    · rfl
    · exact not_isQuote_of_isBlank (call.blankInside c inside)

end StageCall

/-- A text is trimmed up to a visible character exactly when blanks stand before it. -/
theorem trimStart_eq_cons_iff {c : Char} (visible : Text.isBlank c = false)
    {text rest : List Char} :
    Text.trimStart text = c :: rest ↔
      ∃ blanks, (∀ d ∈ blanks, Text.isBlank d = true) ∧ text = blanks ++ c :: rest := by
  constructor
  · intro trimmed
    refine ⟨text.takeWhile Text.isBlank, List.all_eq_true.mp List.all_takeWhile, ?_⟩
    rw [← trimmed, Text.trimStart, List.takeWhile_append_dropWhile]
  · rintro ⟨blanks, blank, rfl⟩
    rw [Text.trimStart_append_of_blank blank, Text.trimStart_cons_of_not_blank visible]

/-- A text that has a declaration at its start gives its name, and what follows it. -/
theorem takeStage?_text (call : StageCall) (rest : List Char) :
    takeStage? (call.text ++ rest) = some (call.name, rest) := by
  have trimmed {blanks : List Char} (blank : ∀ c ∈ blanks, Text.isBlank c = true) {c : Char}
      (visible : Text.isBlank c = false) (others : List Char) :
      Text.trimStart (blanks ++ c :: others) = c :: others :=
    (trimStart_eq_cons_iff visible).mpr ⟨blanks, blank, rfl⟩
  have plain : ∀ c ∈ call.name, (fun c => !isQuote c) c = true := fun c mem => by
    simp [call.unquoted c mem]
  have taken (others : List Char) :
      (call.name ++ call.closing :: others).takeWhile (fun c => !isQuote c) = call.name := by
    rw [List.takeWhile_append_of_pos plain,
      List.takeWhile_cons_of_neg (by simp [call.quotedAfter]), List.append_nil]
  have dropped (others : List Char) :
      (call.name ++ call.closing :: others).dropWhile (fun c => !isQuote c) =
        call.closing :: others := by
    rw [List.dropWhile_append_of_pos plain,
      List.dropWhile_cons_of_neg (by simp [call.quotedAfter])]
  have nonempty : call.name.isEmpty = false := List.isEmpty_eq_false_iff.mpr call.named
  have shape : call.text ++ rest = stageWord ++ (call.before ++ '(' :: (call.inside ++
      call.opening :: (call.name ++ call.closing :: (call.after ++ ')' :: rest)))) := by
    simp [StageCall.text, StageCall.front, StageCall.back]
  rw [shape, takeStage?, show "stage".toList = stageWord from rfl, Text.dropPrefix?_append,
    Option.bind_some, trimmed call.blankBefore rfl]
  simp only [trimmed call.blankInside (not_isBlank_of_isQuote call.quotedBefore), taken,
    call.quotedBefore, nonempty, dropped, trimmed call.blankAfter (c := ')') rfl]
  rfl

/-- A stage is only taken from a text that spells its declaration. -/
theorem exists_call_of_takeStage? {text name rest : List Char}
    (taken : takeStage? text = some (name, rest)) :
    ∃ call : StageCall, call.name = name ∧ text = call.text ++ rest := by
  obtain ⟨after, word, found⟩ := Option.bind_eq_some_iff.mp taken
  split at found
  · next inside parenthesis =>
    split at found
    · next opening body mark =>
      dsimp only at found
      by_cases refused : (!isQuote opening ||
          (body.takeWhile fun c => !isQuote c).isEmpty) = true
      · rw [if_pos refused] at found
        cases found
      · rw [if_neg refused] at found
        obtain ⟨quoted, named⟩ := not_or.mp (mt Bool.or_eq_true_iff.mpr refused)
        have first : isQuote opening = true := by simpa using quoted
        split at found
        · next closing others dropped =>
          split at found
          · next last =>
            cases found
            have second : isQuote closing = true := by
              have stop := List.head?_dropWhile_not (fun c => !isQuote c) body
              rw [dropped] at stop
              simpa using stop
            obtain ⟨before, blankBefore, rfl⟩ := (trimStart_eq_cons_iff rfl).mp parenthesis
            obtain ⟨within, blankInside, rfl⟩ :=
              (trimStart_eq_cons_iff (not_isBlank_of_isQuote first)).mp mark
            obtain ⟨behind, blankAfter, rfl⟩ := (trimStart_eq_cons_iff rfl).mp last
            have whole := List.takeWhile_append_dropWhile (p := fun c => !isQuote c) (l := body)
            rw [dropped] at whole
            have spelled : text = stageWord ++ (before ++ '(' :: (within ++ opening ::
                ((body.takeWhile fun c => !isQuote c) ++
                  closing :: (behind ++ ')' :: rest)))) := by
              rw [Text.dropPrefix?_eq_some word, whole]
              rfl
            refine ⟨{ before, inside := within, opening, closing, after := behind, blankBefore
                      name := body.takeWhile fun c => !isQuote c
                      blankInside, blankAfter, quotedBefore := first, quotedAfter := second
                      named := by simpa using named
                      unquoted := fun c mem => by
                        simpa using List.all_eq_true.mp List.all_takeWhile c mem }, rfl, ?_⟩
            rw [spelled]
            simp [StageCall.text, StageCall.front, StageCall.back]
          · cases found
        · cases found
    · cases found
  · cases found

theorem takeStage?_eq_some_iff {text name rest : List Char} :
    takeStage? text = some (name, rest) ↔
      ∃ call : StageCall, call.name = name ∧ text = call.text ++ rest := by
  constructor
  · exact exists_call_of_takeStage?
  · rintro ⟨call, rfl, rfl⟩
    exact takeStage?_text call rest

theorem takeStage?_ne_none_iff {text : List Char} :
    takeStage? text ≠ none ↔ ∃ call : StageCall, call.text <+: text := by
  constructor
  · intro some
    obtain ⟨found, taken⟩ := Option.ne_none_iff_exists'.mp some
    obtain ⟨call, -, shape⟩ := exists_call_of_takeStage? taken
    exact ⟨call, found.2, shape.symm⟩
  · rintro ⟨call, rest, rfl⟩
    rw [takeStage?_text]
    exact Option.some_ne_none _

/-- The name of a section is that of a declaration. -/
theorem exists_call_of_mem_sections {skip : Nat} {text : List Char}
    {declared : List Char × List Char} (mem : declared ∈ (sections skip text).2) :
    ∃ call : StageCall, call.name = declared.1 := by
  induction skip, text using sections.induct with
  | case1 skip => cases mem
  | case2 skip c text ih => exact ih mem
  | case3 c text name rest taken body later _ ih =>
    rw [sections, taken] at mem
    rcases List.mem_cons.mp mem with rfl | later
    · obtain ⟨call, named, -⟩ := exists_call_of_takeStage? taken
      exact ⟨call, named⟩
    · exact ih later
  | case4 c text none body later _ ih =>
    rw [sections, none] at mem
    exact ih mem

/-! ### Texts that declare nothing -/

/-- Whether a declaration is spelled somewhere in a text. -/
def DeclaresStage (text : List Char) : Prop := ∃ call : StageCall, call.text <:+: text

theorem not_declaresStage_nil : ¬DeclaresStage [] := by
  rintro ⟨call, found⟩
  have none := List.infix_nil.mp found
  exact List.append_ne_nil_of_right_ne_nil _ (List.cons_ne_nil _ _) none

theorem declaresStage_cons_iff {c : Char} {text : List Char} :
    DeclaresStage (c :: text) ↔ takeStage? (c :: text) ≠ none ∨ DeclaresStage text := by
  rw [takeStage?_ne_none_iff, DeclaresStage, DeclaresStage, ← exists_or]
  exact exists_congr fun call => List.infix_cons_iff

/-- A text is one section exactly when it declares nothing. -/
theorem sections_eq_iff {text : List Char} :
    sections 0 text = (text, []) ↔ ¬DeclaresStage text := by
  induction text with
  | nil => exact iff_of_true rfl not_declaresStage_nil
  | cons c text ih =>
    rw [declaresStage_cons_iff, not_or, ← ih, Classical.not_not, sections]
    cases taken : takeStage? (c :: text) with
    | some found => simp
    | none => simp [Prod.ext_iff]

/-- Every other text has a section with a name. -/
theorem sections_snd_eq_nil_iff {text : List Char} :
    (sections 0 text).2 = [] ↔ ¬DeclaresStage text := by
  constructor
  · intro none
    induction text with
    | nil => exact not_declaresStage_nil
    | cons c text ih =>
      rw [sections] at none
      rw [declaresStage_cons_iff, not_or, Classical.not_not]
      cases taken : takeStage? (c :: text) with
      | some found => simp [taken] at none
      | none => exact ⟨rfl, ih (by simpa [taken] using none)⟩
  · intro undeclared
    rw [sections_eq_iff.mpr undeclared]

instance (text : List Char) : Decidable (DeclaresStage text) :=
  decidable_of_iff (¬(sections 0 text).2 = []) (by
    rw [sections_snd_eq_nil_iff, Classical.not_not])

/-- No declaration reaches into a text without a closing parenthesis. -/
theorem declaresStage_append_iff {text tail : List Char} (unclosed : ')' ∉ tail) :
    DeclaresStage (text ++ tail) ↔ DeclaresStage text := by
  constructor
  · rintro ⟨call, start, rest, same⟩
    refine ⟨call, start, ?_⟩
    have split : (start ++ (call.front ++ call.back)) ++ ')' :: rest = text ++ tail := by
      rw [← same]
      simp [StageCall.text]
    rcases List.append_eq_append_iff.mp split with ⟨more, shape, last⟩ | ⟨more, -, last⟩
    · rcases List.cons_eq_append_iff.mp last with ⟨-, within⟩ | ⟨others, rfl, -⟩
      · exact absurd (within ▸ List.mem_cons_self ..) unclosed
      · refine ⟨others, ?_⟩
        rw [shape]
        simp [StageCall.text]
    · exact absurd (last ▸ List.mem_append_right _ (List.mem_cons_self ..)) unclosed
  · rintro ⟨call, found⟩
    exact ⟨call, found.trans (List.prefix_append text tail).isInfix⟩

/-- Nor does one begin in a text that leads the machine for the word back to its start. -/
theorem declaresStage_inert_append_iff {text rest : List Char} (inert : text.foldl advance 0 = 0) :
    DeclaresStage (text ++ rest) ↔ DeclaresStage rest := by
  refine Decidable.not_iff_not.mp ?_
  rw [← sections_snd_eq_nil_iff, ← sections_snd_eq_nil_iff, sections_inert inert]

/-- A literal declares what its escaped text does, if code without a declaration and without a
closing parenthesis stands around it. -/
theorem declaresStage_literal_iff {before after : List Char} (inert : before.foldl advance 0 = 0)
    (unclosed : ')' ∉ after) (text : List Char) :
    DeclaresStage (before ++ quote text ++ after) ↔ DeclaresStage (escape text) := by
  have around {marks : List Char} (opens : marks.foldl advance 0 = 0) (closes : ')' ∉ marks) :
      DeclaresStage (before ++ (marks ++ escape text ++ marks) ++ after) ↔
        DeclaresStage (escape text) := by
    have tail : ')' ∉ marks ++ after := by simp [closes, unclosed]
    have shape : before ++ (marks ++ escape text ++ marks) ++ after =
        before ++ (marks ++ (escape text ++ (marks ++ after))) := by simp
    rw [shape, declaresStage_inert_append_iff inert, declaresStage_inert_append_iff opens,
      declaresStage_append_iff tail]
  rw [quote]
  split
  · exact around (by decide) (by decide)
  · exact around (by decide) (by decide)

/-! ### Declarations that were written -/

/-- The declaration of a stage of a given name. -/
def declaration (name : List Char) : List Char := stageWord ++ '(' :: (quote name ++ [')'])

theorem unquoted_escape {name : List Char} (unquoted : ∀ c ∈ name, isQuote c = false) :
    ∀ c ∈ escape name, isQuote c = false := by
  intro c mem
  rcases mem_of_mem_escape mem with own | rfl
  · exact unquoted c own
  · rfl

/-- Without quotes, only backslashes are escaped. -/
theorem escape_eq_self_iff_of_unquoted {name : List Char}
    (unquoted : ∀ c ∈ name, isQuote c = false) : escape name = name ↔ '\\' ∉ name := by
  rw [escape_eq_self_iff]
  constructor
  · intro plain slash
    cases plain _ slash
  · intro absent c mem
    refine Bool.or_eq_false_iff.mpr ⟨beq_eq_false_iff_ne.mpr ?_, ?_⟩
    · rintro rfl
      exact absent mem
    · exact (Bool.or_eq_false_iff.mp (unquoted c mem)).1

/-- A name without quotes is taken with the escapes of its literal. -/
theorem takeStage?_declaration {name : List Char} (nonempty : name ≠ [])
    (unquoted : ∀ c ∈ name, isQuote c = false) (oneLine : '\n' ∉ name) (rest : List Char) :
    takeStage? (declaration name ++ rest) = some (escape name, rest) := by
  have named : escape name ≠ [] := by
    intro none
    have same := unescape_escape name
    rw [none] at same
    exact nonempty same.symm
  refine takeStage?_eq_some_iff.mpr
    ⟨{ before := [], inside := [], opening := '\''
       name := escape name, closing := '\'', after := []
       blankBefore := nofun, blankInside := nofun, blankAfter := nofun
       quotedBefore := rfl, quotedAfter := rfl, named
       unquoted := unquoted_escape unquoted }, rfl, ?_⟩
  simp [declaration, quote_of_line oneLine, StageCall.text, StageCall.front, StageCall.back]

theorem sections_skip (passed rest : List Char) :
    sections passed.length (passed ++ rest) = sections 0 rest := by
  induction passed with
  | nil => rfl
  | cons c passed ih => exact ih

/-- A declaration opens the section of its stage. -/
theorem sections_declaration {name : List Char} (nonempty : name ≠ [])
    (unquoted : ∀ c ∈ name, isQuote c = false) (oneLine : '\n' ∉ name) (rest : List Char) :
    sections 0 (declaration name ++ rest) =
      ([], (escape name, (sections 0 rest).1) :: (sections 0 rest).2) := by
  obtain ⟨passed, shape⟩ : ∃ passed, declaration name = 's' :: passed := ⟨_, rfl⟩
  have taken := takeStage?_declaration nonempty unquoted oneLine rest
  rw [shape, List.cons_append] at taken ⊢
  have length : (passed ++ rest).length - rest.length = passed.length := by
    rw [List.length_append, Nat.add_sub_cancel]
  rw [sections, taken]
  simp only [length, sections_skip]

/-! ### Names that cannot begin -/

/-- How a text stands to the names of declarations. -/
inductive Watch where
  | idle
  /-- A parenthesis was opened, and only blanks followed. -/
  | opened
  /-- A quote followed the parenthesis, and a name may begin. -/
  | quoted
  /-- A name began. -/
  | begun
  deriving DecidableEq

/-- Reads one character. -/
def watch : Watch → Char → Watch
  | .begun, _ => .begun
  | .quoted, c => if isQuote c then .idle else .begun
  | .opened, c =>
    if isQuote c then .quoted else if c = '(' || Text.isBlank c then .opened else .idle
  | .idle, c => if c = '(' then .opened else .idle

@[simp] theorem foldl_watch_begun (text : List Char) : text.foldl watch .begun = .begun := by
  induction text with
  | nil => rfl
  | cons c text ih => exact ih

theorem collapsesBlanks_watch : Text.CollapsesBlanks watch := by
  intro state c d blankC blankD
  have other {e : Char} (blank : Text.isBlank e = true) : e ≠ '(' := by
    rintro rfl
    cases blank
  cases state with
  | idle => simp [watch, other blankC, other blankD]
  | opened =>
    simp [watch, not_isQuote_of_isBlank blankC, not_isQuote_of_isBlank blankD, blankC, blankD]
  | quoted => simp [watch, not_isQuote_of_isBlank blankC, not_isQuote_of_isBlank blankD]
  | begun => simp [watch]

/-- Without a quote, a name cannot begin. -/
theorem foldl_watch_unquoted {text : List Char} (unquoted : ∀ c ∈ text, isQuote c = false)
    {state : Watch} (waits : state = .idle ∨ state = .opened) :
    text.foldl watch state = .idle ∨ text.foldl watch state = .opened := by
  induction text generalizing state with
  | nil => exact waits
  | cons c text ih =>
    have own := unquoted c (List.mem_cons_self ..)
    refine ih (fun d mem => unquoted d (List.mem_cons_of_mem _ mem)) ?_
    rcases waits with rfl | rfl
    · rw [watch]
      split
      · exact .inr rfl
      · exact .inl rfl
    · rw [watch, if_neg (by simp [own])]
      split
      · exact .inr rfl
      · exact .inl rfl

/-- Between three quotes a text without quotes is no name, even after a parenthesis. -/
theorem foldl_watch_quote {text : List Char} (newline : '\n' ∈ text)
    (unquoted : ∀ c ∈ text, isQuote c = false) : (quote text).foldl watch .opened = .idle := by
  have shape : quote text = ['\'', '\'', '\''] ++ (escape text ++ ['\'', '\'', '\'']) := by
    rw [quote_of_block newline]
    rfl
  have opening : ['\'', '\'', '\''].foldl watch .opened = .idle := by decide
  rw [shape, List.foldl_append, List.foldl_append, opening]
  rcases foldl_watch_unquoted (unquoted_escape unquoted) (.inl rfl) with idle | opened
  · rw [idle]
    decide
  · rw [opened]
    decide

/-- Up to its first quote, a declaration opens a parenthesis, whatever stood before. -/
theorem foldl_watch_front (call : StageCall) (state : Watch) :
    call.front.foldl watch state = .opened ∨ call.front.foldl watch state = .begun := by
  have blanks {text : List Char} (blank : ∀ c ∈ text, Text.isBlank c = true) :
      text.foldl watch .opened = .opened := by
    induction text with
    | nil => rfl
    | cons c text ih =>
      have stay : watch .opened c = .opened := by
        have own := blank c (List.mem_cons_self ..)
        simp [watch, not_isQuote_of_isBlank own, own]
      rw [List.foldl_cons, stay]
      exact ih fun d mem => blank d (List.mem_cons_of_mem _ mem)
  rw [StageCall.front, List.foldl_append, List.foldl_cons]
  generalize (stageWord ++ call.before).foldl watch state = reached
  cases reached with
  | idle => exact .inl (blanks call.blankInside)
  | opened => exact .inl (blanks call.blankInside)
  | quoted => exact .inr (foldl_watch_begun call.inside)
  | begun => exact .inr (foldl_watch_begun call.inside)

/-- No declaration begins a text that has a quote and does not begin a name. -/
theorem takeStage?_of_watch {state : Watch} {text : List Char}
    (quote : ∃ c ∈ text, isQuote c = true) (idle : text.foldl watch state = .idle)
    (rest : List Char) : takeStage? (text ++ rest) = none := by
  cases taken : takeStage? (text ++ rest) with
  | none => rfl
  | some found =>
    obtain ⟨call, -, spelled⟩ := exists_call_of_takeStage? taken
    have split : text ++ rest = call.front ++ (call.back ++ ')' :: found.2) := by
      rw [spelled]
      simp [StageCall.text]
    obtain ⟨mark, mem, isMark⟩ := quote
    have quoteless (part : List Char) (shape : call.front = text ++ part) : False := by
      have within : mark ∈ call.front := shape ▸ List.mem_append_left _ mem
      rw [StageCall.not_isQuote_of_mem_front within] at isMark
      cases isMark
    rcases List.append_eq_append_iff.mp split with ⟨part, shape, -⟩ | ⟨part, shape, other⟩
    · exact (quoteless part shape).elim
    · cases part with
      | nil => exact (quoteless [] (by simpa using shape.symm)).elim
      | cons first part =>
        obtain ⟨c, name, named⟩ := List.exists_cons_of_ne_nil call.named
        have plain : isQuote c = false := call.unquoted c (named ▸ List.mem_cons_self ..)
        rw [StageCall.back, named, List.cons_append, List.cons_append, List.cons_append] at other
        obtain ⟨same, other⟩ := List.cons.inj other
        rw [shape, List.foldl_append, List.foldl_cons, ← same] at idle
        rcases foldl_watch_front call state with front | front
        · rw [front, watch, if_pos call.quotedBefore] at idle
          cases part with
          | nil => cases idle
          | cons second part =>
            rw [← (List.cons.inj other).1, List.foldl_cons, watch, if_neg (by simp [plain]),
              foldl_watch_begun] at idle
            cases idle
        · rw [front, watch, foldl_watch_begun] at idle
          cases idle

theorem takeStage?_of_ne {c : Char} (other : c ≠ 's') (text : List Char) :
    takeStage? (c :: text) = none := by
  cases taken : takeStage? (c :: text) with
  | none => rfl
  | some found =>
    obtain ⟨call, -, spelled⟩ := exists_call_of_takeStage? taken
    exact absurd (List.cons.inj spelled).1 other

theorem sections_of_not_mem {text : List Char} (absent : 's' ∉ text) (rest : List Char) :
    sections 0 (text ++ rest) = (text ++ (sections 0 rest).1, (sections 0 rest).2) := by
  induction text with
  | nil => rfl
  | cons c text ih =>
    obtain ⟨other, absent⟩ := not_or.mp (fun mem => absent (List.mem_cons.mpr mem))
    rw [List.cons_append, sections, takeStage?_of_ne (Ne.symm other)]
    simp only [ih absent, List.cons_append]

/-- A text in which no name begins goes to the section it stands in, when no declaration can
begin after its last quote. -/
theorem sections_of_watch {state : Watch} {text last : List Char} {mark : Char}
    (quote : isQuote mark = true) (absent : 's' ∉ last)
    (idle : (text ++ mark :: last).foldl watch state = .idle) (rest : List Char) :
    sections 0 (text ++ mark :: last ++ rest) =
      (text ++ mark :: last ++ (sections 0 rest).1, (sections 0 rest).2) := by
  induction text generalizing state with
  | nil =>
    have other : 's' ∉ mark :: last := by
      intro mem
      rcases List.mem_cons.mp mem with rfl | later
      · cases quote
      · exact absent later
    exact sections_of_not_mem other rest
  | cons c text ih =>
    have none := takeStage?_of_watch ⟨mark, by simp, quote⟩ idle rest
    rw [List.cons_append, List.cons_append] at none ⊢
    rw [sections, none]
    simp only [ih idle, List.cons_append]

end CiTranslate.Groovy
