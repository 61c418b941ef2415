import CiTranslate.Classification
import CiTranslate.Proofs.Text.Lowercase
import Mathlib.Data.List.Basic

/-!
What the strict rule finds.

The strict rule takes the first row of the table all of whose keywords occur, so that any row whose
keywords occur bounds what it finds (`exists_strict_of_hasKeywords`). The keywords are small ASCII
words, which are neither lost among other text (`hasKeywords_append`) nor changed when the text
becomes lower case (`hasKeywords_of_words`). Both halves of `strict_covers` follow, and that the
second row of two with the same keywords is never found.
-/

namespace CiTranslate

/-- The number of a dialect's row in the table. -/
def Dialect.row (dialect : Dialect) : Nat := Dialect.all.idxOf dialect

namespace Classification

open Text (contains lowercase IsLowWord)

/-! ### The first row that fits -/

/-- The first row that fits does not come after any row that fits. -/
theorem exists_find?_of_mem {rows : List Dialect} {fits : Dialect → Bool} {dialect : Dialect}
    (mem : dialect ∈ rows) (own : fits dialect = true) :
    ∃ first, rows.find? fits = some first ∧ rows.idxOf first ≤ rows.idxOf dialect := by
  induction rows with
  | nil => cases mem
  | cons row rows ih =>
    by_cases found : fits row = true
    · exact ⟨row, List.find?_cons_of_pos found, by simp [List.idxOf_cons]⟩
    · have other : row ≠ dialect := fun same => found (same ▸ own)
      obtain ⟨first, later, before⟩ := ih ((List.mem_cons.mp mem).resolve_left (Ne.symm other))
      have differ : row ≠ first := fun same => found (same ▸ List.find?_some later)
      refine ⟨first, by rw [List.find?_cons_of_neg found, later], ?_⟩
      rw [List.idxOf_cons_ne _ differ, List.idxOf_cons_ne _ other]
      exact Nat.succ_le_succ before

theorem dialect?_strict (text : List Char) :
    (strict text).dialect? = Dialect.all.find? (hasKeywords (lowercase text)) := by
  unfold strict
  split <;> simp [*, ofTable, unknown]

theorem strict_eq_ofTable {text : List Char} {dialect : Dialect}
    (found : Dialect.all.find? (hasKeywords (lowercase text)) = some dialect) :
    strict text = ofTable dialect := by
  rw [strict, found]

/-- A dialect whose keywords occur is found, or one of an earlier row. -/
theorem exists_strict_of_hasKeywords {text : List Char} {dialect : Dialect}
    (keywords : hasKeywords (lowercase text) dialect = true) :
    ∃ first, strict text = ofTable first ∧ first.row ≤ dialect.row := by
  obtain ⟨first, found, before⟩ := exists_find?_of_mem (Dialect.mem_all dialect) keywords
  exact ⟨first, strict_eq_ofTable found, before⟩

theorem hasKeywords_of_strict {text : List Char} {dialect : Dialect}
    (found : (strict text).dialect? = some dialect) :
    hasKeywords (lowercase text) dialect = true := by
  rw [dialect?_strict] at found
  exact List.find?_some found

/-! ### Keywords -/

theorem isLowWord_keyword {dialect : Dialect} {word : String}
    (mem : word ∈ dialect.info.keywords) : IsLowWord word.toList := by
  have all : ∀ dialect ∈ Dialect.all, ∀ word ∈ dialect.info.keywords, IsLowWord word.toList := by
    decide
  exact all dialect (Dialect.mem_all dialect) word mem

theorem hasKeywords_iff {text : List Char} {dialect : Dialect} :
    hasKeywords text dialect = true ↔
      ∀ word ∈ dialect.info.keywords, contains word.toList text = true :=
  List.all_eq_true

/-- Keywords still occur when something is put before and behind the text. -/
theorem hasKeywords_append {text : List Char} {dialect : Dialect}
    (keywords : hasKeywords (lowercase text) dialect = true) (before after : List Char) :
    hasKeywords (lowercase (before ++ text ++ after)) dialect = true := by
  refine hasKeywords_iff.mpr fun word mem => ?_
  have low := isLowWord_keyword mem
  exact Text.contains_lowercase_append (low.not_mem (by decide)) (low.not_mem (by decide))
    (hasKeywords_iff.mp keywords word mem) before after

/-- Keywords that occur as they are also occur in any case. -/
theorem hasKeywords_of_words {text : List Char} {dialect : Dialect}
    (words : ∀ word ∈ dialect.info.keywords, contains word.toList text = true) :
    hasKeywords (lowercase text) dialect = true :=
  hasKeywords_iff.mpr fun word mem => (isLowWord_keyword mem).contains_lowercase (words word mem)

/-! ### Permissive guesses -/

/-- The dialects that the permissive rules do not guess without all of their keywords. -/
def worded : List Dialect := [.circleci, .bamboo, .jenkinsfileScripted, .gitlabCi]

/-- A name that begins with a keyword has the keyword. -/
theorem contains_gitlab {text : List Char} (found : contains "gitlab-ci".toList text = true) :
    contains "gitlab".toList text = true := by
  rw [Text.contains_eq_true_iff] at found ⊢
  exact List.IsInfix.trans ⟨[], "-ci".toList, by decide⟩ found

/-- The rules that guess such a dialect ask for its keywords, each in a way of its own. -/
theorem words_of_permissive {text : List Char} {dialect : Dialect} (mem : dialect ∈ worded)
    (guess : (permissive text).dialect? = some dialect) :
    ∀ word ∈ dialect.info.keywords, contains word.toList text = true := by
  have fallback (has : String → Bool) : (fallback has).dialect? ≠ some dialect := by
    unfold Classification.fallback
    split
    · rintro ⟨⟩
      exact absurd mem (by decide)
    · rintro ⟨⟩
  unfold permissive at guess
  dsimp only at guess
  split at guess
  · obtain rfl := Option.some.inj guess
    exact absurd mem (by decide)
  · split at guess
    · next both =>
      split at guess
      · next marker =>
        obtain rfl := Option.some.inj guess
        obtain ⟨jobs, stages⟩ := Bool.and_eq_true_iff.mp both
        simp only [Dialect.info, List.forall_mem_cons]
        exact ⟨stages, jobs, contains_gitlab marker, List.forall_mem_nil _⟩
      · split at guess
        · obtain rfl := Option.some.inj guess
          exact absurd mem (by decide)
        · exact absurd guess (fallback _)
    · split at guess
      · next both =>
        split at guess
        · next agent =>
          obtain rfl := Option.some.inj guess
          obtain ⟨pipeline, stages⟩ := Bool.and_eq_true_iff.mp both
          simp only [Dialect.info, List.forall_mem_cons]
          exact ⟨pipeline, agent, stages, List.forall_mem_nil _⟩
        · obtain rfl := Option.some.inj guess
          exact absurd mem (by decide)
      · split at guess
        · next both =>
          obtain rfl := Option.some.inj guess
          obtain ⟨plan, stages⟩ := Bool.and_eq_true_iff.mp both
          simp only [Dialect.info, List.forall_mem_cons]
          exact ⟨plan, stages, List.forall_mem_nil _⟩
        · split at guess
          · next both =>
            obtain rfl := Option.some.inj guess
            obtain ⟨workflows, jobs⟩ := Bool.and_eq_true_iff.mp both
            simp only [Dialect.info, List.forall_mem_cons]
            exact ⟨workflows, jobs, List.forall_mem_nil _⟩
          · split at guess
            · obtain rfl := Option.some.inj guess
              exact absurd mem (by decide)
            · exact absurd guess (fallback _)

/-! ### Both policies -/

/-- The scripted dialect comes before the declarative one, which has the same keywords. -/
theorem strict_ne_declarative (text : List Char) :
    (strict text).dialect? ≠ some .jenkinsfileDeclarative := by
  intro found
  have words := hasKeywords_iff.mp (hasKeywords_of_strict found)
  have scripted : hasKeywords (lowercase text) .jenkinsfileScripted = true := by
    refine hasKeywords_iff.mpr fun word mem => words word ?_
    have same : ∀ word ∈ Dialect.jenkinsfileScripted.info.keywords,
        word ∈ Dialect.jenkinsfileDeclarative.info.keywords := by decide
    exact same word mem
  obtain ⟨first, strict, before⟩ := exists_strict_of_hasKeywords scripted
  rw [strict] at found
  obtain rfl := Option.some.inj found
  exact absurd before (by decide)

/-- **The strict rule is monotone and covers permissive guesses.** What is put before and behind a
text can move its strict guess to an earlier row of the table only, and never makes it unknown.
Where the permissive rules guess one of the dialects that they ask all keywords of, the strict rule
guesses it too, or one of an earlier row. And there is a dialect, with the same keywords as the one
before it, that the strict rule never guesses. -/
theorem strict_covers :
    (∀ (a b c : String) (dialect : Dialect), (ofText .strict b).dialect? = some dialect →
        ∃ first, ofText .strict (a ++ b ++ c) = ofTable first ∧ first.row ≤ dialect.row) ∧
      (∀ (b : String) (dialect : Dialect),
        dialect ∈ [.circleci, .bamboo, .jenkinsfileScripted, .gitlabCi] →
        (ofText .permissive b).dialect? = some dialect →
        ∃ first, ofText .strict b = ofTable first ∧ first.row ≤ dialect.row) ∧
      ∀ text : String, (ofText .strict text).dialect? ≠ some .jenkinsfileDeclarative := by
  refine ⟨fun a b c dialect found => ?_, fun b dialect mem guess => ?_,
    fun text => strict_ne_declarative text.toList⟩
  · have keywords := hasKeywords_append (hasKeywords_of_strict found) a.toList c.toList
    rw [ofText, String.toList_append, String.toList_append]
    exact exists_strict_of_hasKeywords keywords
  · exact exists_strict_of_hasKeywords (hasKeywords_of_words (words_of_permissive mem guess))

/-- Workflows, in capitals and with a Kelvin sign, that become one of Azure's texts through what is
put around them; and a text of GitLab's that both policies guess. -/
theorem strict_covers_workflows :
    (ofText .strict "WOR\u212aFLOWS: jobs").dialect? = some .circleci ∧
      (∃ first, ofText .strict ("trigger: Σ pool " ++ "WOR\u212aFLOWS: jobs" ++ " STAGES") =
        ofTable first ∧ first.row ≤ Dialect.row .circleci) ∧
      (ofText .permissive "stages jobs .gitlab-ci.yml").dialect? = some .gitlabCi ∧
      ∃ first, ofText .strict "stages jobs .gitlab-ci.yml" = ofTable first ∧
        first.row ≤ Dialect.row .gitlabCi := by
  obtain ⟨monotone, covers, -⟩ := strict_covers
  have strict : (ofText .strict "WOR\u212aFLOWS: jobs").dialect? = some .circleci := by decide
  have permissive :
      (ofText .permissive "stages jobs .gitlab-ci.yml").dialect? = some .gitlabCi := by
    decide
  exact ⟨strict, monotone _ _ _ _ strict, permissive, covers _ _ (by decide) permissive⟩

end Classification

end CiTranslate
