import CiTranslate.Groovy.Script
import CiTranslate.Text.Offset

/-!
The scan that takes the noise out of a script, over the bytes of the script.

The scan goes through the script by offsets. Literals and calls are measured byte by byte, so that
on the way an offset can lie inside of a character, or after the script. Parts of the script are
taken only at the offsets where a passage ends.
-/

namespace CiTranslate.Groovy

/-! ### Literals -/

def isQuoteByte (b : UInt8) : Bool := b == '\''.toUInt8 || b == '"'.toUInt8

/-- Whether three quotes stand at an offset. -/
def tripleAt (bytes : List UInt8) (quote : UInt8) (offset : Nat) : Bool :=
  [quote, quote, quote].isPrefixOf (bytes.drop offset)

/-- The end of a literal that is read up to an offset. A backslash takes the byte after it along. -/
def closingEnd (bytes : List UInt8) (quote : UInt8) (multiline : Bool) (offset : Nat) : Nat :=
  if inside : offset < bytes.length then
    if bytes[offset] == '\\'.toUInt8 then closingEnd bytes quote multiline (offset + 2)
    else if bytes[offset] == '\n'.toUInt8 && !multiline then offset
    else if bytes[offset] == quote then
      if !multiline then offset + 1
      else if tripleAt bytes quote offset then offset + 3
      else closingEnd bytes quote multiline (offset + 1)
    else closingEnd bytes quote multiline (offset + 1)
  else bytes.length
termination_by bytes.length - offset

/-- The end of the literal that starts at an offset. -/
def literalEnd? (bytes : List UInt8) (start : Nat) : Option Nat :=
  (bytes[start]?.filter isQuoteByte).map fun quote =>
    if tripleAt bytes quote start then closingEnd bytes quote true (start + 3)
    else closingEnd bytes quote false (start + 1)

theorem min_le_closingEnd (bytes : List UInt8) (quote : UInt8) (multiline : Bool) (offset : Nat) :
    min offset bytes.length ≤ closingEnd bytes quote multiline offset := by
  fun_induction closingEnd bytes quote multiline offset <;> omega

/-- A literal has its first quote at least. -/
theorem lt_literalEnd? {bytes : List UInt8} {start stop : Nat}
    (found : literalEnd? bytes start = some stop) : start < stop := by
  obtain ⟨quote, first, rfl⟩ := Option.map_eq_some_iff.mp found
  have inside := (List.getElem?_eq_some_iff.mp (Option.filter_eq_some_iff.mp first).1).1
  split
  · have later := min_le_closingEnd bytes quote true (start + 3)
    omega
  · have later := min_le_closingEnd bytes quote false (start + 1)
    omega

/-! ### Calls -/

/-- The byte before an offset, as a character. -/
def previousAt (bytes : List UInt8) (offset : Nat) : Option Char :=
  if offset == 0 then none else bytes[offset - 1]?.map Char.ofUInt8

/-- The end of a call that is read up to an offset, with `depth` parentheses open. -/
def callEnd? (bytes : List UInt8) (depth offset : Nat) : Option Nat :=
  if inside : offset < bytes.length then
    match found : literalEnd? bytes offset with
    | some stop => callEnd? bytes depth stop
    | none =>
      if bytes[offset] == '('.toUInt8 then callEnd? bytes (depth + 1) (offset + 1)
      else if bytes[offset] == ')'.toUInt8 then
        if depth ≤ 1 then some (offset + 1) else callEnd? bytes (depth - 1) (offset + 1)
      else callEnd? bytes depth (offset + 1)
  else none
termination_by bytes.length - offset
decreasing_by
  · have := lt_literalEnd? found
    omega
  · omega
  · omega
  · omega

/-- The end of the debug call that starts at an offset. -/
def debugEnd? (script : List Char) (start : Nat) : Except Text.SliceFault (Option Nat) :=
  if !startsName (previousAt (Text.utf8 script) start) then .ok none
  else do
    let rest ← Text.slice script start (Text.byteLength script)
    match debugNames.find? (·.isPrefixOf rest) with
    | none => .ok none
    | some name =>
      let called ← Text.slice rest (Text.byteLength name) (Text.byteLength rest)
      match Text.trimStart called with
      | '(' :: arguments =>
        .ok (callEnd? (Text.utf8 script) 1
          (Text.byteLength script - Text.byteLength ('(' :: arguments) + 1))
      | _ => .ok none

/-- The end of the comment or debug call that starts at an offset, where `rest` is the text from
there on. -/
def noiseEnd? (script : List Char) (start : Nat) (rest : List Char) :
    Except Text.SliceFault (Option Nat) :=
  if ['/', '*'].isPrefixOf rest then do
    let comment ← Text.slice rest 2 (Text.byteLength rest)
    .ok <| some <| (Text.offset? ['*', '/'] comment).elim (Text.byteLength script)
      (start + 2 + · + 2)
  else if ['/', '/'].isPrefixOf rest && previousAt (Text.utf8 script) start != some ':' then
    .ok <| some <| (Text.offset? ['\n'] rest).elim (Text.byteLength script) (start + ·)
  else debugEnd? script start

theorem lt_callEnd? {bytes : List UInt8} {depth offset stop : Nat}
    (found : callEnd? bytes depth offset = some stop) : offset < stop := by
  fun_induction callEnd? bytes depth offset with
  | case1 depth offset inside next literal ih =>
    exact Nat.lt_trans (lt_literalEnd? literal) (ih found)
  | case2 depth offset inside literal opening ih => exact Nat.lt_of_succ_lt (ih found)
  | case3 depth offset inside literal other closing last =>
    cases found
    exact Nat.lt_succ_self offset
  | case4 depth offset inside literal other closing inner ih => exact Nat.lt_of_succ_lt (ih found)
  | case5 depth offset inside literal other plain ih => exact Nat.lt_of_succ_lt (ih found)
  | case6 => cases found

theorem lt_debugEnd? {script : List Char} {start stop : Nat}
    (found : debugEnd? script start = .ok (some stop)) : start < stop := by
  rw [debugEnd?] at found
  split at found
  · cases found
  · obtain ⟨rest, taken, found⟩ := Text.exists_of_bind_eq_ok found
    split at found
    · cases found
    · obtain ⟨called, own, found⟩ := Text.exists_of_bind_eq_ok found
      split at found
      · next arguments trimmed =>
        obtain ⟨before, after, rfl, first, last⟩ := Text.slice_eq_ok taken
        obtain ⟨name, more, rfl, -⟩ := Text.slice_eq_ok own
        obtain ⟨blanks, rfl⟩ : '(' :: arguments <:+ called :=
          trimmed ▸ List.dropWhile_suffix Text.isBlank
        have later := lt_callEnd? (Except.ok.inj found)
        simp only [Text.byteLength_append] at first later
        omega
      · cases found

theorem lt_noiseEnd? {script rest : List Char} {start stop : Nat}
    (inside : start < Text.byteLength script)
    (found : noiseEnd? script start rest = .ok (some stop)) : start < stop := by
  rw [noiseEnd?] at found
  split at found
  · obtain ⟨comment, -, found⟩ := Text.exists_of_bind_eq_ok found
    cases found
    cases Text.offset? ['*', '/'] comment with
    | none => exact inside
    | some offset => simp only [Option.elim]; omega
  · split at found
    · next slashes =>
      cases found
      cases stops : Text.offset? ['\n'] rest with
      | none => exact inside
      | some offset =>
        have absent : ['\n'].isPrefixOf rest = false := by
          obtain ⟨later, rfl⟩ := List.isPrefixOf_iff_prefix.mp (Bool.and_eq_true_iff.mp slashes).1
          rfl
        exact Nat.lt_add_of_pos_right (Text.pos_of_offset? absent stops)
    · exact lt_debugEnd? found

/-! ### The scan -/

/-- How far a scan has come: up to `position`, with the script up to `mark` copied or dropped. -/
structure Scan where
  position : Nat
  mark : Nat
  copy : List Char
  deriving DecidableEq, Repr

namespace Scan

/-- The scan after the passage at its position. -/
def next (script : List Char) (scan : Scan) : Except Text.SliceFault Scan := do
  let rest ← Text.slice script scan.position (Text.byteLength script)
  match literalEnd? (Text.utf8 script) scan.position with
  | some stop => .ok { scan with position := stop }
  | none =>
    match ← noiseEnd? script scan.position rest with
    | some stop =>
      let code ← Text.slice script scan.mark scan.position
      .ok ⟨stop, stop, scan.copy ++ code⟩
    | none =>
      match rest with
      | c :: _ => .ok { scan with position := scan.position + c.utf8Size }
      | [] => .ok { scan with position := scan.position + 1 }

theorem position_lt_next {script : List Char} {scan after : Scan}
    (inside : scan.position < Text.byteLength script)
    (step : scan.next script = .ok after) : scan.position < after.position := by
  rw [next] at step
  obtain ⟨rest, -, step⟩ := Text.exists_of_bind_eq_ok step
  split at step
  · next stop literal =>
    cases step
    exact lt_literalEnd? literal
  · obtain ⟨noise, found, step⟩ := Text.exists_of_bind_eq_ok step
    split at step
    · obtain ⟨code, -, step⟩ := Text.exists_of_bind_eq_ok step
      cases step
      exact lt_noiseEnd? inside found
    · split at step
      · cases step
        exact Nat.lt_add_of_pos_right (Char.utf8Size_pos _)
      · cases step
        exact Nat.lt_succ_self _

/-- What is left of the script when the scan goes on up to its end. -/
def finish (script : List Char) (scan : Scan) : Except Text.SliceFault (List Char) :=
  if inside : scan.position < Text.byteLength script then
    match step : scan.next script with
    | .ok after =>
      have := position_lt_next inside step
      after.finish script
    | .error fault => .error fault
  else do
    let code ← Text.slice script scan.mark (Text.byteLength script)
    .ok (scan.copy ++ code)
termination_by Text.byteLength script - scan.position

/-- A scan that is at the start of its script. -/
def start : Scan := ⟨0, 0, []⟩

end Scan

end CiTranslate.Groovy
