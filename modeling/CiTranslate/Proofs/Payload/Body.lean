import CiTranslate.Proofs.Groovy.Ends
import CiTranslate.Proofs.Payload
import CiTranslate.Proofs.Payload.Fence
import CiTranslate.Proofs.Payload.Yaml

/-!
Payloads that are read again.

A text and the fenced block that holds it have the same payload in every dialect (`ofText_fenced`).
The body of the block has one line end more than the text, which no payload keeps
(`ofBody_append_newline`).

Of a text without a fence, a payload in YAML is its own payload (`cleanYaml_normal_form`): cleaning
brings in no fence (`not_infix_cleanYaml`), and the mark of a document begins neither a script nor a
JSON text (`ofBody_marked`).
-/

namespace CiTranslate.Payload

/-! ### Line ends -/

theorem head?_trimStart_append_blanks (text : List Char) {blanks : List Char}
    (blank : ∀ c ∈ blanks, Text.isBlank c = true) :
    (Text.trimStart (text ++ blanks)).head? = (Text.trimStart text).head? := by
  rw [Text.trimStart_append_blanks text blank]
  split
  · next empty => rw [empty]
  · next filled => exact List.head?_append_of_ne_nil _ filled

/-- A line end at the end of a body does not matter. -/
theorem ofBody_append_newline (dialect : Dialect) (body : List Char) :
    ofBody dialect (body ++ ['\n']) = ofBody dialect body := by
  have blank : ∀ c ∈ ['\n'], Text.isBlank c = true := by decide
  have yaml : cleanYaml (body ++ ['\n']) = cleanYaml body := by
    rw [cleanYaml, contentLines, Text.trim_append_of_blank body blank, ← contentLines, ← cleanYaml]
  have script := Groovy.clean_append_newline body
  cases dialect
  case jenkinsfileScripted => rw [ofBody, script, ofBody]
  case jenkinsfileDeclarative => rw [ofBody, script, yaml, ofBody]
  case codepipeline =>
    rw [ofBody, head?_trimStart_append_blanks body blank, Text.trim_append_of_blank body blank,
      yaml, ofBody]
  all_goals exact congrArg (fun text => Payload.yaml (String.ofList text)) yaml

/-! ### Fenced texts -/

/-- A line end cannot be part of a fence. -/
theorem not_infix_append_newline {text : List Char} (absent : ¬fence <:+: text) :
    ¬fence <:+: text ++ ['\n'] := by
  rw [← Text.contains_eq_false_iff] at absent ⊢
  rw [Text.contains_append_cons (by decide) (by decide), absent]
  rfl

/-- **Fencing is invisible.** A text between the line of a fence and another fence has the payload
that it has by itself, or none, whatever stands around the block; only another fence must not stand
before it. -/
theorem ofText_fenced (dialect : Dialect) (opening : Opening) {before body : String}
    (absent : ¬fence <:+: before.toList) (unfenced : ¬fence <:+: body.toList) (after : String) :
    ofText dialect (String.ofList (before.toList ++
        (opening.text ++ '\n' :: (body.toList ++ '\n' :: (fence ++ after.toList))))) =
      ofText dialect body := by
  have found := fenced?_opening absent opening (not_infix_append_newline unfenced)
    (by rw [List.getLast?_concat]; decide) after.toList
  rw [List.append_assoc, List.singleton_append] at found
  rw [ofText, String.toList_ofList, found, Option.getD_some, ofBody_append_newline, ofText,
    fenced?_eq_none (Text.contains_eq_false_iff.mpr unfenced), Option.getD_none]

/-- The line of a fence in capitals, with blanks behind the language. -/
def capitalOpening : Opening where
  tag := "YAML".toList
  blanks := [' ', '\t']
  isTag := by decide
  blank := by decide

/-- The backticks around the fences belong to what stands before, in and after the block. -/
theorem ofText_fenced_backticks :
    ofText .jenkinsfileDeclarative "x`````YAML \t\na: `b``\n````" = .ok (.yaml "---\na: `b``") := by
  have same := ofText_fenced .jenkinsfileDeclarative capitalOpening
    (show ¬fence <:+: "x``".toList by decide) (show ¬fence <:+: "a: `b``".toList by decide) "`"
  exact same.trans rfl

/-! ### Clean texts -/

/-- Cleaning brings in no fence. -/
theorem not_infix_cleanYaml {text : List Char} (absent : ¬fence <:+: text) :
    ¬fence <:+: cleanYaml text := by
  rw [← Text.contains_eq_true_iff, cleanYaml, Text.contains_joinLines (by decide) (by decide)]
  intro found
  obtain ⟨line, mem, own⟩ := List.any_eq_true.mp found
  rw [Text.contains_eq_true_iff] at own
  rcases mem_markDocument mem with rfl | mem
  · exact absurd own (by decide)
  · rw [contentLines_eq_filter] at mem
    have trimmed := Text.infix_of_mem_tidyRows (List.mem_filter.mp mem).1
    obtain ⟨before, after, whole, -, -⟩ := Text.exists_blanks_trim text
    exact absent ((own.trans trimmed).trans ⟨before, after, whole.symm⟩)

/-- The mark of a document begins no script and no JSON text. -/
theorem ofBody_marked {dialect : Dialect} (declared : dialect ≠ .jenkinsfileScripted)
    {text : List Char} (marked : documentStart <+: text) :
    ofBody dialect text = .yaml (String.ofList (cleanYaml text)) := by
  obtain ⟨rest, rfl⟩ := marked
  have visible : Text.isBlank '-' = false := by decide
  cases dialect
  case jenkinsfileScripted => exact absurd rfl declared
  case jenkinsfileDeclarative =>
    obtain ⟨script, shape⟩ := Groovy.exists_clean_cons visible (by decide) (by decide) (by decide)
      ('-' :: '-' :: rest)
    have other : Groovy.isPipeline (Groovy.clean (documentStart ++ rest)) = false := by
      refine Bool.eq_false_iff.mpr fun pipeline => ?_
      obtain ⟨more, start⟩ := exists_of_isPipeline pipeline
      rw [show Groovy.clean (documentStart ++ rest) = '-' :: script from shape,
        Text.trimStart_cons_of_not_blank visible] at start
      exact absurd (List.cons.inj start).1 (by decide)
    rw [ofBody, other, if_neg Bool.false_ne_true]
  case codepipeline =>
    have start : Text.trimStart (documentStart ++ rest) = documentStart ++ rest :=
      Text.trimStart_cons_of_not_blank visible _
    rw [ofBody, start, if_neg (by exact Bool.false_ne_true)]
  all_goals rfl

theorem ofBody_eq_yaml {dialect : Dialect} {body : List Char} {yaml : String}
    (found : ofBody dialect body = .yaml yaml) :
    dialect ≠ .jenkinsfileScripted ∧ yaml = String.ofList (cleanYaml body) := by
  unfold ofBody at found
  split at found
  · cases found
  · dsimp only at found
    split at found
    · cases found
    · exact ⟨by decide, (Payload.yaml.inj found).symm⟩
  · split at found
    · cases found
    · exact ⟨by decide, (Payload.yaml.inj found).symm⟩
  · next scripted _ _ => exact ⟨scripted, (Payload.yaml.inj found).symm⟩

/-- A payload in YAML is its own payload. -/
theorem ofText_yaml {text : String} (absent : ¬fence <:+: text.toList) {dialect : Dialect}
    {yaml : String} (found : ofText dialect text = .ok (.yaml yaml)) :
    ofText dialect yaml = .ok (.yaml yaml) := by
  rw [ofText, fenced?_eq_none (Text.contains_eq_false_iff.mpr absent), Option.getD_none] at found
  split at found
  · cases found
  · next filled =>
    have payload := Except.ok.inj found
    obtain ⟨declared, rfl⟩ := ofBody_eq_yaml payload
    rw [payload] at filled
    have marked : documentStart <+: cleanYaml text.toList := by
      rcases isClean_cleanYaml text.toList with empty | ⟨marked, -⟩
      · rw [empty] at filled
        exact absurd rfl filled
      · exact marked
    have again : ofBody dialect (cleanYaml text.toList) =
        .yaml (String.ofList (cleanYaml text.toList)) := by
      rw [ofBody_marked declared marked, (isClean_cleanYaml text.toList).cleanYaml_eq]
    have unfenced := Text.contains_eq_false_iff.mpr (not_infix_cleanYaml absent)
    rw [ofText, String.toList_ofList, fenced?_eq_none unfenced, Option.getD_none, again]
    exact if_neg filled

/-- **Cleaning reaches a normal form.** Cleaning a text again changes nothing, as what is left is
clean. So a payload in YAML, got from a text without a fence, stays the same when it is read again
in its dialect. -/
theorem cleanYaml_normal_form (text : String) :
    cleanYaml (cleanYaml text.toList) = cleanYaml text.toList ∧ IsClean (cleanYaml text.toList) ∧
      (¬fence <:+: text.toList → ∀ dialect yaml, ofText dialect text = .ok (.yaml yaml) →
        ofText dialect yaml = .ok (.yaml yaml)) :=
  ⟨(isClean_cleanYaml _).cleanYaml_eq, isClean_cleanYaml _, fun absent _ _ => ofText_yaml absent⟩

/-- A text with line ends of two characters, blank lines and blanks at the ends of its lines. -/
theorem cleanYaml_normal_form_stages :
    ofText .jenkinsfileDeclarative " \n  stages: \r\n\n  - a\t\n" =
        .ok (.yaml "---\nstages:\n  - a") ∧
      ofText .jenkinsfileDeclarative "---\nstages:\n  - a" = .ok (.yaml "---\nstages:\n  - a") := by
  have reached : ofText .jenkinsfileDeclarative " \n  stages: \r\n\n  - a\t\n" =
      .ok (.yaml "---\nstages:\n  - a") := rfl
  exact ⟨reached, (cleanYaml_normal_form _).2.2 (by decide) _ _ reached⟩

end CiTranslate.Payload
