import CiTranslate.Payload
import CiTranslate.Proofs.Text.Blank
import CiTranslate.Proofs.Text.Search

/-!
Texts that are payloads as a whole.

A script is taken for one where no fence stands in it and cleaning it leaves a declarative
pipeline. A JSON text may hold backticks in its quotes: what closes the quotes stands between
them and the next line end, so that no fence opens (`fenced?_of_sealed`).
-/

namespace CiTranslate.Payload

/-- Without three backticks there is no fenced block. -/
theorem fenced?_eq_none {text : List Char} (absent : Text.contains fence text = false) :
    fenced? text = none := by
  induction text with
  | nil => rfl
  | cons c text ih =>
    obtain ⟨here, later⟩ := Bool.or_eq_false_iff.mp absent
    have closed : afterFence? (c :: text) = none := by
      rw [afterFence?, Text.dropPrefix?_eq_none here, Option.bind_none]
    rw [fenced?, closed, Option.bind_none]
    exact ih later

/-! ### Backticks in quotes -/

/-- A quote stands before the next line end. -/
def QuoteAhead (text : List Char) : Prop :=
  ∃ before after, text = before ++ '"' :: after ∧ '\n' ∉ before

theorem QuoteAhead.append {text : List Char} (ahead : QuoteAhead text) (rest : List Char) :
    QuoteAhead (text ++ rest) := by
  obtain ⟨before, after, rfl, line⟩ := ahead
  exact ⟨before, after ++ rest, by rw [List.append_assoc, List.cons_append], line⟩

/-- Passing over a character that is no quote does not pass over the quote. -/
theorem QuoteAhead.of_cons {c : Char} {text : List Char} (other : c ≠ '"')
    (ahead : QuoteAhead (c :: text)) : QuoteAhead text := by
  obtain ⟨before, after, shape, line⟩ := ahead
  cases before with
  | nil => exact absurd (List.cons.inj shape).1 other
  | cons d before =>
    exact ⟨before, after, (List.cons.inj shape).2, fun mem => line (List.mem_cons_of_mem _ mem)⟩

theorem not_quoteAhead_newline (text : List Char) : ¬QuoteAhead ('\n' :: text) := by
  rintro ⟨before, after, shape, line⟩
  cases before with
  | nil => exact absurd (List.cons.inj shape).1 (by decide)
  | cons d before => exact line (List.mem_cons.mpr (.inl (List.cons.inj shape).1))

theorem QuoteAhead.dropWhile {p : Char → Bool} (stops : p '"' = false) {text : List Char}
    (ahead : QuoteAhead text) : QuoteAhead (text.dropWhile p) := by
  induction text with
  | nil => exact ahead
  | cons c text ih =>
    cases passed : p c with
    | false => rwa [List.dropWhile_cons_of_neg (by simp [passed])]
    | true =>
      rw [List.dropWhile_cons_of_pos passed]
      refine ih (ahead.of_cons ?_)
      rintro rfl
      rw [passed] at stops
      cases stops

/-- No word of letters has a quote. -/
theorem QuoteAhead.afterWord {word text rest : List Char}
    (letters : ∀ letter ∈ word, Text.isLetter letter '"' = false) (ahead : QuoteAhead text)
    (found : Text.afterWord? word text = some rest) : QuoteAhead rest := by
  induction word generalizing text with
  | nil =>
    cases found
    exact ahead
  | cons letter word ih =>
    cases text with
    | nil => cases found
    | cons c text =>
      rw [Text.afterWord?] at found
      split at found
      · next own =>
        refine ih (fun other mem => letters other (List.mem_cons_of_mem _ mem))
          (ahead.of_cons ?_) found
        rintro rfl
        rw [letters letter (List.mem_cons_self ..)] at own
        cases own
      · cases found

/-- A quote that is still to come ends no line. -/
theorem QuoteAhead.afterLineEnd {text : List Char} (ahead : QuoteAhead text) :
    afterLineEnd? text = none := by
  have kept := ahead.dropWhile (p := fun c => c == ' ' || c == '\t') (by decide)
  unfold afterLineEnd?
  split
  · next rest shape =>
    rw [shape] at kept
    exact absurd kept (not_quoteAhead_newline rest)
  · next rest shape =>
    rw [shape] at kept
    exact absurd (kept.of_cons (by decide)) (not_quoteAhead_newline rest)
  · rfl

/-- Every backtick has a quote after it on its line. -/
def Sealed : List Char → Prop
  | [] => True
  | c :: text => (c = backtick → QuoteAhead text) ∧ Sealed text

theorem Sealed.append {text rest : List Char} (first : Sealed text) (second : Sealed rest) :
    Sealed (text ++ rest) := by
  induction text with
  | nil => exact second
  | cons c text ih => exact ⟨fun tick => (first.1 tick).append rest, ih first.2⟩

theorem sealed_of_not_mem {text : List Char} (absent : backtick ∉ text) : Sealed text := by
  induction text with
  | nil => trivial
  | cons c text ih =>
    obtain ⟨other, absent⟩ := not_or.mp fun mem => absent (List.mem_cons.mpr mem)
    exact ⟨fun tick => absurd tick.symm other, ih absent⟩

/-- No fence opens where a quote follows every backtick. -/
theorem Sealed.afterFence {text : List Char} (isSealed : Sealed text) :
    afterFence? text = none := by
  have languages : ∀ word ∈ fenceLanguages, ∀ letter ∈ word,
      Text.isLetter letter '"' = false := by
    simp [fenceLanguages, Text.isLetter]
  cases found : Text.dropPrefix? fence text with
  | none => rw [afterFence?, found, Option.bind_none]
  | some rest =>
    have whole : text = backtick :: backtick :: backtick :: rest := Text.dropPrefix?_eq_some found
    have ahead : QuoteAhead rest := by
      rw [whole] at isSealed
      exact isSealed.2.2.1 rfl
    have tagged :
        (fenceLanguages.findSome? (Text.afterWord? · rest)).bind afterLineEnd? = none := by
      cases word : fenceLanguages.findSome? (Text.afterWord? · rest) with
      | none => rfl
      | some after =>
        obtain ⟨language, mem, taken⟩ := List.exists_of_findSome?_eq_some word
        exact (ahead.afterWord (languages language mem) taken).afterLineEnd
    rw [afterFence?, found, Option.bind_some, tagged]
    exact ahead.afterLineEnd

theorem fenced?_of_sealed {text : List Char} (isSealed : Sealed text) : fenced? text = none := by
  induction text with
  | nil => rfl
  | cons c text ih =>
    rw [fenced?, isSealed.afterFence, Option.bind_none]
    exact ih isSealed.2

/-- A sealed text between braces is read as JSON, just as it is. -/
theorem ofText_json {inner : List Char} (isSealed : Sealed ('\x7b' :: (inner ++ ['\x7d']))) :
    ofText .codepipeline (String.ofList ('\x7b' :: (inner ++ ['\x7d']))) =
      .ok (.json (String.ofList ('\x7b' :: (inner ++ ['\x7d'])))) := by
  have start : Text.trimStart ('\x7b' :: (inner ++ ['\x7d'])) = '\x7b' :: (inner ++ ['\x7d']) :=
    Text.trimStart_cons_of_not_blank (by decide) _
  have trimmed : Text.trim ('\x7b' :: (inner ++ ['\x7d'])) = '\x7b' :: (inner ++ ['\x7d']) := by
    rw [Text.trim, start]
    exact Text.trimEnd_append_cons ('\x7b' :: inner) (by decide) []
  have body : ofBody .codepipeline ('\x7b' :: (inner ++ ['\x7d'])) =
      .json (String.ofList ('\x7b' :: (inner ++ ['\x7d']))) := by
    simp only [ofBody, start, trimmed, List.head?_cons, beq_self_eq_true, if_true]
  have mark : ('\x7b' :: (inner ++ ['\x7d']) == documentStart) = false := rfl
  have notBlank : isBlank (.json (String.ofList ('\x7b' :: (inner ++ ['\x7d'])))) = false := by
    simp only [isBlank, text, String.toList_ofList, trimmed, mark]
    rfl
  rw [ofText, String.toList_ofList, fenced?_of_sealed isSealed, Option.getD_none, body]
  simp only [notBlank, Bool.false_eq_true, if_false]

/-! ### Scripts -/

/-- A declarative pipeline begins with its name, perhaps after blanks. -/
theorem exists_of_isPipeline {script : List Char} (pipeline : Groovy.isPipeline script = true) :
    ∃ rest, Text.trimStart script = 'p' :: rest := by
  unfold Groovy.isPipeline at pipeline
  split at pipeline
  · next rest found =>
    have whole := Text.dropPrefix?_eq_some found
    exact ⟨_, whole⟩
  · cases pipeline

theorem isBlank_script {script : List Char} (pipeline : Groovy.isPipeline script = true) :
    isBlank (.script (String.ofList script)) = false := by
  obtain ⟨rest, start⟩ := exists_of_isPipeline pipeline
  have trimmed : Text.trim script = 'p' :: Text.trimEnd rest := by
    rw [Text.trim, start]
    exact Text.trimEnd_append_cons [] (by decide) rest
  have mark : ('p' :: Text.trimEnd rest == documentStart) = false := rfl
  simp only [isBlank, text, String.toList_ofList, trimmed, mark]
  rfl

/-- A text without a fence is read as a script where cleaning it leaves a declarative
pipeline. -/
theorem ofText_script {text : String} (absent : Text.contains fence text.toList = false)
    (pipeline : Groovy.isPipeline (Groovy.clean text.toList) = true) :
    ofText .jenkinsfileDeclarative text =
      .ok (.script (String.ofList (Groovy.clean text.toList))) := by
  have body : ofBody .jenkinsfileDeclarative text.toList =
      .script (String.ofList (Groovy.clean text.toList)) := by
    rw [ofBody, if_pos pipeline]
  rw [ofText, fenced?_eq_none absent, Option.getD_none, body, isBlank_script pipeline]
  rfl

end CiTranslate.Payload
