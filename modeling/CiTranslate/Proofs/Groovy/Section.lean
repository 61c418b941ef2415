import CiTranslate.Groovy.Stage
import CiTranslate.Proofs.Groovy.Literal
import CiTranslate.Proofs.Text.Search

/-!
Where a script is divided into stages.

A script is divided where the word `stage` meets an opening parenthesis, perhaps over blanks.
A machine that counts how much of the word was just read tells whether that can happen, also
over the end of a text (`advance`). A text that leaves it where it started has no division and
completes none (`sections_append`); literals of harmless texts are of that kind
(`foldl_advance_quote`), and so is what tidying makes of such texts (`collapsesBlanks_advance`).
-/

namespace CiTranslate.Groovy

/-- The word that declares a stage. -/
def stageWord : List Char := ['s', 't', 'a', 'g', 'e']

/-- Whether a text begins with the word `stage` and an opening parenthesis, with nothing but
blanks between them. -/
def opensStage (text : List Char) : Bool :=
  match Text.dropPrefix? stageWord text with
  | some rest => (Text.trimStart rest).head? == some '('
  | none => false

/-- Whether some part of a text begins like that. -/
def mentionsStage : List Char → Bool
  | [] => false
  | c :: text => opensStage (c :: text) || mentionsStage text

/-- How far the word was read. Five stands for the whole word and blanks after it, six for the
parenthesis, after which nothing matters. -/
def advance (progress : Nat) (c : Char) : Nat :=
  if progress = 6 then 6
  else if progress = 5 then
    if Text.isBlank c then 5 else if c = '(' then 6 else if c = 's' then 1 else 0
  else if stageWord[progress]? = some c then progress + 1
  else if c = 's' then 1 else 0

/-! ### The machine -/

@[simp] theorem advance_six (c : Char) : advance 6 c = 6 := rfl

@[simp] theorem foldl_advance_six (text : List Char) : text.foldl advance 6 = 6 := by
  induction text with
  | nil => rfl
  | cons c text ih => exact ih

/-- Whatever was read, an `s` begins the word. -/
theorem advance_s {progress : Nat} (unfinished : progress ≠ 6) : advance progress 's' = 1 := by
  unfold advance
  rw [if_neg unfinished]
  split
  · rfl
  · split
    · next read =>
      have zero : progress = 0 := by
        match progress, read with
        | 0, _ => rfl
        | 1, read | 2, read | 3, read | 4, read => exact absurd read (by decide)
        | n + 5, read => exact absurd read (by simp [stageWord])
      rw [zero]
    · rfl

/-- Characters of escapes lead back to the start. -/
theorem advance_of_isEscaped {progress : Nat} (unfinished : progress ≠ 6) {c : Char}
    (escaped : isEscaped c = true) : advance progress c = 0 := by
  have foreign : c ∉ stageWord ∧ c ≠ '(' ∧ c ≠ 's' ∧ Text.isBlank c = false := by
    rcases Bool.or_eq_true_iff.mp escaped with slash | mark
    · rw [eq_of_beq slash]
      decide
    · rw [eq_of_beq mark]
      decide
  obtain ⟨absent, parenthesis, first, visible⟩ := foreign
  have unread : stageWord[progress]? ≠ some c := fun read => absent (List.mem_of_getElem? read)
  simp [advance, unfinished, unread, parenthesis, first, visible]

theorem collapsesBlanks_advance : Text.CollapsesBlanks advance := by
  intro progress c d blankC blankD
  have letters : (stageWord.all fun letter => !Text.isBlank letter) = true := by decide
  have unread {e : Char} (blank : Text.isBlank e = true) (n : Nat) :
      stageWord[n]? ≠ some e := by
    intro read
    have visible := List.all_eq_true.mp letters e (List.mem_of_getElem? read)
    rw [blank] at visible
    cases visible
  have other {e : Char} (blank : Text.isBlank e = true) : e ≠ 's' := by
    rintro rfl
    cases blank
  have once {e : Char} (blank : Text.isBlank e = true) (n : Nat) :
      advance n e = if n = 6 then 6 else if n = 5 then 5 else 0 := by
    simp [advance, blank, unread blank, other blank]
  rw [once blankC, once blankD, once blankD]
  refine ⟨rfl, ?_⟩
  by_cases six : progress = 6
  · simp [six]
  · by_cases five : progress = 5
    · simp [five]
    · simp [six, five]

/-! ### Harmless texts -/

theorem mentionsStage_append_left (start : List Char) {text : List Char}
    (mentions : mentionsStage text = true) : mentionsStage (start ++ text) = true := by
  induction start with
  | nil => exact mentions
  | cons c start ih => rw [List.cons_append, mentionsStage, ih, Bool.or_true]

theorem mentionsStage_stageWord (text : List Char) :
    mentionsStage (stageWord ++ text) =
      ((Text.trimStart text).head? == some '(' || mentionsStage text) := by
  change (_ == some '(' || (false || (false || (false || (false || mentionsStage text))))) = _
  simp

/-- Where the machine ends with the parenthesis, the text has a place like that, or completes
one with what was read before. -/
theorem mentionsStage_of_foldl {progress : Nat} (low : progress ≤ 5) {text : List Char}
    (reached : text.foldl advance progress = 6) :
    mentionsStage (stageWord.take progress ++ text) = true := by
  induction text generalizing progress with
  | nil =>
    rw [List.foldl_nil] at reached
    omega
  | cons c text ih =>
    rw [List.foldl_cons] at reached
    have restart (isS : c = 's') (one : advance progress c = 1) :
        mentionsStage (stageWord.take progress ++ c :: text) = true := by
      rw [one] at reached
      subst isS
      exact mentionsStage_append_left _ (ih (by omega) reached)
    have forget (zero : advance progress c = 0) :
        mentionsStage (stageWord.take progress ++ c :: text) = true := by
      rw [zero] at reached
      have later := mentionsStage_append_left [c] (ih (Nat.zero_le 5) reached)
      exact mentionsStage_append_left _ later
    rcases Nat.lt_or_eq_of_le low with less | rfl
    · by_cases read : stageWord[progress]? = some c
      · have next : advance progress c = progress + 1 := by
          simp [advance, read, show progress ≠ 6 by omega, show progress ≠ 5 by omega]
        rw [next] at reached
        have longer := ih less reached
        rwa [List.take_add_one, read, Option.toList_some, List.append_assoc,
          List.singleton_append] at longer
      · by_cases isS : c = 's'
        · exact restart isS (isS ▸ advance_s (by omega))
        · refine forget ?_
          simp [advance, read, isS, show progress ≠ 6 by omega, show progress ≠ 5 by omega]
    · have whole : stageWord.take 5 = stageWord := rfl
      by_cases blank : Text.isBlank c = true
      · have stay : advance 5 c = 5 := by simp [advance, blank]
        rw [stay] at reached
        have later := ih (Nat.le_refl 5) reached
        rw [whole, mentionsStage_stageWord] at later
        rw [whole, mentionsStage_stageWord, Text.trimStart_cons_of_blank blank]
        rcases Bool.or_eq_true_iff.mp later with here | there
        · rw [here, Bool.true_or]
        · have mentions : mentionsStage (c :: text) = true := mentionsStage_append_left [c] there
          rw [mentions, Bool.or_true]
      · have visible : Text.isBlank c = false := by simpa using blank
        by_cases parenthesis : c = '('
        · rw [whole, mentionsStage_stageWord, Text.trimStart_cons_of_not_blank visible, parenthesis]
          rfl
        · by_cases isS : c = 's'
          · exact restart isS (isS ▸ advance_s (by omega))
          · refine forget ?_
            simp [advance, visible, parenthesis, isS]

theorem foldl_advance_ne {text : List Char} (harmless : mentionsStage text = false) :
    text.foldl advance 0 ≠ 6 := by
  intro reached
  have mentions := mentionsStage_of_foldl (Nat.zero_le 5) reached
  rw [List.take_zero, List.nil_append, harmless] at mentions
  cases mentions

/-- Escapes are not noticed. -/
theorem foldl_advance_escape (progress : Nat) (text : List Char) :
    (escape text).foldl advance progress = text.foldl advance progress := by
  induction text generalizing progress with
  | nil => rfl
  | cons c text ih =>
    cases escaped : isEscaped c with
    | false => rw [escape_cons_of_not_escaped escaped, List.foldl_cons, ih, List.foldl_cons]
    | true =>
      rw [escape_cons_of_escaped escaped, List.foldl_cons, List.foldl_cons, ih, List.foldl_cons]
      by_cases six : progress = 6
      · rw [six]
        rfl
      · rw [advance_of_isEscaped six rfl, advance_of_isEscaped (by decide) escaped,
          advance_of_isEscaped six escaped]

/-- The literal of a harmless text leads back to the start. -/
theorem foldl_advance_quote {progress : Nat} (unfinished : progress ≠ 6) {text : List Char}
    (harmless : mentionsStage text = false) : (quote text).foldl advance progress = 0 := by
  have mark {state : Nat} (unfinished : state ≠ 6) : advance state '\'' = 0 :=
    advance_of_isEscaped unfinished rfl
  have body := foldl_advance_ne harmless
  by_cases newline : '\n' ∈ text
  · rw [quote_of_block newline]
    simp only [List.foldl_cons, List.foldl_append, List.foldl_nil, foldl_advance_escape,
      mark unfinished, mark (show 0 ≠ 6 by decide), mark body]
  · rw [quote_of_line newline]
    simp only [List.foldl_cons, List.foldl_append, List.foldl_nil, foldl_advance_escape,
      mark unfinished, mark body]

/-! ### Texts without divisions -/

/-- After the word, only blanks keep the machine from the parenthesis. -/
theorem foldl_advance_five {text rest : List Char}
    (opens : (Text.trimStart (text ++ rest)).head? = some '(') : text.foldl advance 5 ≠ 0 := by
  induction text with
  | nil => decide
  | cons c text ih =>
    rw [List.cons_append] at opens
    by_cases blank : Text.isBlank c = true
    · have stay : advance 5 c = 5 := by simp [advance, blank]
      rw [Text.trimStart_cons_of_blank blank] at opens
      rw [List.foldl_cons, stay]
      exact ih opens
    · have visible : Text.isBlank c = false := by simpa using blank
      rw [Text.trimStart_cons_of_not_blank visible, List.head?_cons, Option.some_inj] at opens
      rw [List.foldl_cons, opens, show advance 5 '(' = 6 from rfl, foldl_advance_six]
      decide

/-- A text that begins a place where a script is divided, here or in what follows, does not lead
back to the start. -/
theorem foldl_advance_of_opensStage {progress : Nat} (unfinished : progress ≠ 6)
    {text rest : List Char} (nonempty : text ≠ []) (opens : opensStage (text ++ rest) = true) :
    text.foldl advance progress ≠ 0 := by
  unfold opensStage at opens
  split at opens
  · next after found =>
    have whole := Text.dropPrefix?_eq_some found
    rcases List.append_eq_append_iff.mp whole with ⟨more, word, -⟩ | ⟨more, shape, split⟩
    · -- The text ends within the word.
      have begun : ∀ n ≤ 5, text = stageWord.take n → text.foldl advance progress ≠ 0 := by
        intro n bound shape
        subst shape
        match n, bound, nonempty with
        | 0, _, nonempty => exact absurd rfl nonempty
        | n + 1, bound, _ =>
          have rest : ∀ m ≤ 4, (['t', 'a', 'g', 'e'].take m).foldl advance 1 ≠ 0 := by decide
          rw [stageWord, List.take_succ_cons, List.foldl_cons, advance_s unfinished]
          exact rest n (by omega)
      have bound : text.length ≤ 5 := by
        have lengths := congrArg List.length word
        rw [List.length_append] at lengths
        have five : stageWord.length = 5 := rfl
        omega
      exact begun text.length bound (by rw [word, List.take_left])
    · -- The text has the whole word.
      rw [split] at opens
      rw [shape, List.foldl_append, stageWord, List.foldl_cons, advance_s unfinished]
      exact foldl_advance_five (by simpa using opens)
  · cases opens

theorem takeStage?_of_not_opensStage {text : List Char} (closed : opensStage text = false) :
    takeStage? text = none := by
  unfold opensStage at closed
  rw [takeStage?, show "stage".toList = stageWord from rfl]
  cases found : Text.dropPrefix? stageWord text with
  | none => rfl
  | some rest =>
    simp only [found] at closed
    rw [Option.bind_some]
    cases shape : Text.trimStart rest with
    | nil => rfl
    | cons c more =>
      rw [shape] at closed
      have other : c ≠ '(' := by
        rintro rfl
        cases closed
      split
      · next same => exact absurd (List.cons.inj same).1 other
      · rfl

/-- A text that leads the machine back to the start goes to the section it stands in. -/
theorem sections_append {progress : Nat} (unfinished : progress ≠ 6) {text : List Char}
    (inert : text.foldl advance progress = 0) (rest : List Char) :
    sections 0 (text ++ rest) = (text ++ (sections 0 rest).1, (sections 0 rest).2) := by
  induction text generalizing progress with
  | nil => rfl
  | cons c text ih =>
    have closed : opensStage (c :: (text ++ rest)) = false := by
      refine Bool.eq_false_iff.mpr fun opens => ?_
      exact foldl_advance_of_opensStage unfinished (List.cons_ne_nil c text) opens inert
    rw [List.foldl_cons] at inert
    have next : advance progress c ≠ 6 := by
      intro six
      rw [six, foldl_advance_six] at inert
      cases inert
    rw [List.cons_append, sections, takeStage?_of_not_opensStage closed]
    simp only [ih next inert, List.cons_append]

/-- A text that begins and ends without a part of the word goes to the section it stands in. -/
theorem sections_inert {text : List Char} (inert : text.foldl advance 0 = 0) (rest : List Char) :
    sections 0 (text ++ rest) = (text ++ (sections 0 rest).1, (sections 0 rest).2) :=
  sections_append (by decide) inert rest

end CiTranslate.Groovy
