import CiTranslate.Proofs.Groovy.NoiseEnd

/-!
The scan of a script stays between characters.

A scan goes from the end of one passage to the end of the next one (`Scan.next_utf8`). So it always
stands between two characters of the script, and what it has copied, what is pending and what will
be left of the rest make up the script without noise (`Scan.At`). Each step leads to another such
place (`Scan.At.next`).

Therefore the scan never takes a part of the script that there is not, each step takes it further,
and it ends with the script without noise (`scan_safe`).
-/

namespace CiTranslate.Groovy

open Text (utf8 byteLength OnBoundary)

/-! ### The scan -/

namespace Scan

/-- A scan goes on to the end of the passage at its position. When the passage is noise, it copies
what is pending in front of it. -/
theorem next_utf8 (front pending copy : List Char) {part rest : List Char} (nonempty : part ≠ [])
    {kept : Bool}
    (own : passage (front ++ pending).getLast? (part ++ rest) = (kept, part.length)) :
    Scan.next (front ++ pending ++ (part ++ rest))
        ⟨byteLength (front ++ pending), byteLength front, copy⟩ =
      .ok (if kept then ⟨byteLength (front ++ pending ++ part), byteLength front, copy⟩
        else ⟨byteLength (front ++ pending ++ part), byteLength (front ++ pending ++ part),
          copy ++ pending⟩) := by
  rw [passage] at own
  rw [Scan.next, Text.slice_suffix, Text.ok_bind, literalEnd?_utf8]
  cases literal : literalLength? (part ++ rest) with
  | some length =>
    rw [literal] at own
    cases own
    simp only [Option.map_some, List.take_left]
    rfl
  | none =>
    rw [literal] at own
    simp only [Option.map_none]
    rw [noiseEnd?_utf8, Text.ok_bind]
    cases noise : noiseLength? (front ++ pending).getLast? (part ++ rest) with
    | some length =>
      rw [noise] at own
      cases own
      simp only [Option.map_some, List.take_left]
      rw [Text.slice_append, Text.ok_bind]
      rfl
    | none =>
      rw [noise] at own
      obtain ⟨rfl, one⟩ := Prod.mk.inj own
      obtain ⟨c, rfl⟩ := List.length_eq_one_iff.mp one.symm
      simp [Nat.add_assoc]

/-- A scan that stands between `pending` and `after`, with `front` copied or dropped already. What
it has copied, what is pending and what will be left of `after` are what is left of the script. -/
structure At (script : List Char) (scan : Scan) (front pending after : List Char) : Prop where
  whole : script = front ++ pending ++ after
  mark : scan.mark = byteLength front
  position : scan.position = byteLength (front ++ pending)
  result : scan.copy ++ pending ++ withoutNoiseFrom (front ++ pending).getLast? true 0 after =
    withoutNoise script

variable {script : List Char} {scan : Scan} {front pending after : List Char}

theorem at_start (script : List Char) : Scan.start.At script [] [] script where
  whole := rfl
  mark := rfl
  position := rfl
  result := rfl

theorem At.position_lt_iff (place : scan.At script front pending after) :
    scan.position < byteLength script ↔ after ≠ [] := by
  rw [place.position, place.whole, Text.byteLength_append (front ++ pending)]
  cases after with
  | nil => simp
  | cons c after =>
    have width := c.utf8Size_pos
    simp
    omega

/-- A step of the scan does not fail, and leads from such a place to another one. -/
theorem At.next (place : scan.At script front pending after) (more : after ≠ []) :
    ∃ later front pending after, scan.next script = .ok later ∧
      later.At script front pending after := by
  obtain ⟨kept, part, rest, rfl, nonempty, own⟩ :=
    exists_append_of_passage (front ++ pending).getLast? more
  obtain ⟨rfl, mark, position, result⟩ := place
  obtain ⟨_, _, copy⟩ := scan
  obtain rfl := mark
  obtain rfl := position
  have step := next_utf8 front pending copy nonempty own
  cases kept with
  | true =>
    refine ⟨_, front, pending ++ part, rest, step, ⟨by simp, rfl, by simp, ?_⟩⟩
    rw [← result, withoutNoiseFrom_of_kept nonempty own, ← List.getLast?_append]
    simp
  | false =>
    refine ⟨_, front ++ pending ++ part, [], rest, step, ⟨by simp, rfl, by simp, ?_⟩⟩
    rw [← result, withoutNoiseFrom_of_dropped nonempty own, ← List.getLast?_append]
    simp

/-- From such a place, a scan comes to the script without noise. The induction is on how many bytes
are left to scan. -/
theorem At.finish (place : scan.At script front pending after) :
    scan.finish script = .ok (withoutNoise script) := by
  induction size : byteLength script - scan.position using Nat.strongRecOn
    generalizing scan front pending after with
  | ind n ih =>
    subst size
    rw [Scan.finish]
    by_cases more : after = []
    · subst more
      have last := place.position_lt_iff.not.mpr (not_not.mpr rfl)
      obtain ⟨rfl, mark, -, result⟩ := place
      have code := Text.slice_suffix front pending
      have none : withoutNoiseFrom (front ++ pending).getLast? true 0 [] = [] := rfl
      rw [none, List.append_nil] at result
      rw [dif_neg last, mark, List.append_nil, code, Text.ok_bind, result, List.append_nil]
    · have inside := place.position_lt_iff.mpr more
      obtain ⟨later, _, _, _, step, place⟩ := place.next more
      have ahead := position_lt_next inside step
      rw [dif_pos inside]
      split
      · next own found =>
        rw [step] at found
        cases found
        exact ih _ (Nat.sub_lt_sub_left inside ahead) place rfl
      · next fault failed =>
        rw [step] at failed
        cases failed

/-- The places at which a scan of a script arrives. -/
inductive Reached (script : List Char) : Scan → Prop
  | start : Reached script Scan.start
  | next {scan later : Scan} (reached : Reached script scan)
      (inside : scan.position < byteLength script) (step : scan.next script = .ok later) :
      Reached script later

theorem Reached.at (reached : Reached script scan) :
    ∃ front pending after, scan.At script front pending after := by
  induction reached with
  | start => exact ⟨[], [], script, at_start script⟩
  | next reached inside step ih =>
    obtain ⟨front, pending, after, place⟩ := ih
    obtain ⟨later, _, _, _, own, next⟩ := place.next (place.position_lt_iff.mp inside)
    rw [step] at own
    cases own
    exact ⟨_, _, _, next⟩

/-- Both offsets of a scan are between two characters of the script. -/
theorem Reached.onBoundary (reached : Reached script scan) :
    scan.mark ≤ scan.position ∧ OnBoundary script scan.mark ∧ OnBoundary script scan.position := by
  obtain ⟨front, pending, after, rfl, mark, position, -⟩ := reached.at
  rw [mark, position]
  refine ⟨by simp, ?_, Text.onBoundary_append _ _⟩
  rw [List.append_assoc]
  exact Text.onBoundary_append _ _

theorem Reached.exists_next (reached : Reached script scan)
    (inside : scan.position < byteLength script) :
    ∃ later, scan.next script = .ok later ∧ scan.position < later.position := by
  obtain ⟨front, pending, after, place⟩ := reached.at
  obtain ⟨later, _, _, _, step, -⟩ := place.next (place.position_lt_iff.mp inside)
  exact ⟨later, step, position_lt_next inside step⟩

end Scan

/-! ### Every offset of a scan -/

theorem toNat_lt_of_isQuoteByte {b : UInt8} (mark : isQuoteByte b = true) : b.toNat < 128 := by
  rcases Bool.or_eq_true_iff.mp mark with single | double
  · rw [eq_of_beq single]
    decide
  · rw [eq_of_beq double]
    decide

/-- A literal ends between two characters, wherever it is looked for. -/
theorem onBoundary_of_literalEnd? {script : List Char} {start stop : Nat}
    (found : literalEnd? (utf8 script) start = some stop) : OnBoundary script stop := by
  obtain ⟨b, first, -⟩ := Option.map_eq_some_iff.mp found
  obtain ⟨here, mark⟩ := Option.filter_eq_some_iff.mp first
  obtain ⟨before, c, after, rfl, rfl⟩ :=
    Text.exists_append_of_getElem?_utf8 (toNat_lt_of_isQuoteByte mark) here
  rw [literalEnd?_utf8] at found
  obtain ⟨length, -, rfl⟩ := Option.map_eq_some_iff.mp found
  exact Text.onBoundary_iff.mpr ⟨_, (c :: after).drop length, by simp, rfl⟩

/-- A debug call is looked for without a fault between two characters, and ends between two. -/
theorem exists_debugEnd? {script : List Char} {start : Nat} (between : OnBoundary script start) :
    ∃ result, debugEnd? script start = .ok result ∧
      ∀ stop ∈ result, start < stop ∧ OnBoundary script stop := by
  obtain ⟨before, after, rfl, rfl⟩ := Text.onBoundary_iff.mp between
  have ends := debugEnd?_utf8 before after
  refine ⟨_, ends, fun stop mem => ⟨?_, ?_⟩⟩
  · exact lt_debugEnd? (mem ▸ ends)
  · obtain ⟨length, -, rfl⟩ := Option.map_eq_some_iff.mp mem
    exact Text.onBoundary_iff.mpr ⟨_, after.drop length, by simp, rfl⟩

/-- A scan never takes a part of the script at offsets that are not between two characters, and
each of its steps takes it further; it ends with the script without noise. The offsets at which a
literal or a debug call ends are between two characters, too, although the bytes in them are
counted one by one. -/
theorem scan_safe (script : List Char) :
    (∀ scan, Scan.Reached script scan →
      scan.mark ≤ scan.position ∧ OnBoundary script scan.mark ∧ OnBoundary script scan.position ∧
        (scan.position < byteLength script →
          ∃ later, scan.next script = .ok later ∧ scan.position < later.position)) ∧
      (∀ start stop, literalEnd? (utf8 script) start = some stop →
        start < stop ∧ OnBoundary script stop) ∧
      (∀ start, OnBoundary script start → ∃ result, debugEnd? script start = .ok result ∧
        ∀ stop ∈ result, start < stop ∧ OnBoundary script stop) ∧
      Scan.start.finish script = .ok (withoutNoise script) := by
  refine ⟨fun scan reached => ?_, fun start stop found => ?_, fun start between => ?_, ?_⟩
  · obtain ⟨ordered, mark, position⟩ := reached.onBoundary
    exact ⟨ordered, mark, position, reached.exists_next⟩
  · exact ⟨lt_literalEnd? found, onBoundary_of_literalEnd? found⟩
  · exact exists_debugEnd? between
  · exact (Scan.at_start script).finish

/-- A script with a backslash in front of a character of two bytes, and one at its end. -/
def slashes : List Char := "'\\é' /* ü */ \"\\".toList

theorem scan_safe_slashes :
    (∃ later, Scan.start.next slashes = .ok later ∧ 0 < later.position) ∧
      literalEnd? (utf8 slashes) 0 = some 5 ∧ OnBoundary slashes 5 ∧
      Scan.start.finish slashes = .ok "'\\é'  \"\\".toList := by
  obtain ⟨steps, literals, -, result⟩ := scan_safe slashes
  obtain ⟨-, -, -, advance⟩ := steps Scan.start .start
  have literal : literalEnd? (utf8 slashes) 0 = some 5 :=
    (literalEnd?_utf8 [] slashes).trans (by decide)
  have clean : withoutNoise slashes = "'\\é'  \"\\".toList := by decide
  exact ⟨advance (by decide), literal, (literals 0 5 literal).2, clean ▸ result⟩

end CiTranslate.Groovy
