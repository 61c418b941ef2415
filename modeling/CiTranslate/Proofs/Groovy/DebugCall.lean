import Mathlib.Data.List.Chain
import Mathlib.Data.List.Infix
import CiTranslate.Proofs.Groovy.Script
import CiTranslate.Proofs.Text.Blank

/-!
Debug calls as they can be spelled.

The arguments of a call are text and literals, and the parentheses outside of the literals are
balanced. The scan that measures a call counts these parentheses and passes over the literals, so it
ends at the parenthesis that closes the call, whatever follows (`debugLength?_text`).
-/

namespace CiTranslate.Groovy

/-! ### Parentheses -/

/-- Whether every closing parenthesis closes one before it, and none stays open. -/
structure Balanced (text : List Char) : Prop where
  within : ∀ start, start <+: text → start.count ')' ≤ start.count '('
  whole : text.count ')' = text.count '('

instance (text : List Char) : Decidable (Balanced text) :=
  decidable_of_iff
    ((∀ start ∈ text.inits, start.count ')' ≤ start.count '(') ∧ text.count ')' = text.count '(')
    ⟨fun h => ⟨fun start found => h.1 start ((List.mem_inits ..).mpr found), h.2⟩,
      fun h => ⟨fun start mem => h.within start ((List.mem_inits ..).mp mem), h.whole⟩⟩

/-- Whether a parenthesis stays open all through a text, before which `depth` are open. -/
def StaysOpen (depth : Nat) (text : List Char) : Prop :=
  ∀ start, start <+: text → start.count ')' < depth + start.count '('

/-- How many parentheses are open after a text, before which `depth` are. -/
def depthAfter (depth : Nat) (text : List Char) : Nat := depth + text.count '(' - text.count ')'

theorem Balanced.staysOpen {text : List Char} (balanced : Balanced text) : StaysOpen 1 text := by
  intro start found
  have := balanced.within start found
  omega

theorem Balanced.depthAfter_eq {text : List Char} (balanced : Balanced text) :
    depthAfter 1 text = 1 := by
  have := balanced.whole
  rw [depthAfter]
  omega

theorem StaysOpen.left {depth : Nat} {text rest : List Char}
    (isOpen : StaysOpen depth (text ++ rest)) : StaysOpen depth text :=
  fun start found => isOpen start (found.trans (List.prefix_append text rest))

/-- After a part of the text, the rest still holds a parenthesis open. -/
theorem StaysOpen.right {depth : Nat} {text rest : List Char}
    (isOpen : StaysOpen depth (text ++ rest)) : StaysOpen (depthAfter depth text) rest := by
  intro start found
  have all := isOpen (text ++ start) ((List.prefix_append_right_inj text).mpr found)
  rw [List.count_append, List.count_append] at all
  rw [depthAfter]
  omega

theorem StaysOpen.depthAfter_append {depth : Nat} {text rest : List Char}
    (isOpen : StaysOpen depth (text ++ rest)) :
    depthAfter depth (text ++ rest) = depthAfter (depthAfter depth text) rest := by
  have part := isOpen text (List.prefix_append text rest)
  rw [depthAfter, depthAfter, depthAfter, List.count_append, List.count_append]
  omega

/-! ### Arguments -/

/-- A part of the arguments of a call. -/
inductive Argument where
  | code (text : List Char) (nonempty : text ≠ []) (unquoted : ∀ c ∈ text, isQuote c = false)
  | literal (literal : Literal)

namespace Argument

def text : Argument → List Char
  | .code text .. => text
  | .literal own => own.text

/-- What stands outside of literals. -/
def outside : Argument → List Char
  | .code text .. => text
  | .literal _ => []

/-- Two literals do not stand next to each other. -/
def Apart : Argument → Argument → Prop
  | .literal _, .literal _ => False
  | _, _ => True

instance (first next : Argument) : Decidable (Apart first next) :=
  match first, next with
  | .literal _, .literal _ => .isFalse id
  | .literal _, .code .. => .isTrue trivial
  | .code .., .literal _ => .isTrue trivial
  | .code .., .code .. => .isTrue trivial

end Argument

/-- What follows a literal in a call does not begin with a quote. -/
theorem head?_arguments {literal : Literal} {arguments : List Argument}
    (apart : (.literal literal :: arguments).IsChain Argument.Apart) (rest : List Char) :
    ∀ c ∈ (arguments.flatMap Argument.text ++ ')' :: rest).head?, isQuote c = false := by
  intro c first
  cases arguments with
  | nil =>
    obtain rfl := Option.some.inj first
    rfl
  | cons next arguments =>
    cases next with
    | literal other => exact (List.isChain_cons_cons.mp apart).1.elim
    | code text nonempty unquoted =>
      obtain ⟨d, later, rfl⟩ := List.exists_cons_of_ne_nil nonempty
      obtain rfl := Option.some.inj first
      exact unquoted d (List.mem_cons_self ..)

/-! ### The scan of the arguments -/

theorem callLength?_skip (depth : Nat) (part rest : List Char) :
    callLength? part.length depth (part ++ rest) =
      (callLength? 0 depth rest).map (· + part.length) := by
  induction part with
  | nil => simp
  | cons c part ih =>
    rw [List.length_cons, List.cons_append, callLength?, ih, Option.map_map]
    rfl

/-- A literal is passed over, whatever parentheses are in it. -/
theorem callLength?_literal (depth : Nat) (literal : Literal) {rest : List Char}
    (next : rest.head? ≠ some literal.quote) :
    callLength? 0 depth (literal.text ++ rest) =
      (callLength? 0 depth rest).map (· + literal.text.length) := by
  have length := literalLength?_text literal next
  obtain ⟨text, shape⟩ := literal.exists_text_eq_cons
  rw [shape, List.cons_append] at length ⊢
  rw [callLength?, length]
  simp only [List.length_cons, Nat.add_sub_cancel]
  rw [callLength?_skip, Option.map_map]
  rfl

/-- A parenthesis outside of literals is counted, unless it closes the call. -/
theorem callLength?_cons {c : Char} (unquoted : isQuote c = false) {depth : Nat}
    (isOpen : StaysOpen depth [c]) (rest : List Char) :
    callLength? 0 depth (c :: rest) =
      (callLength? 0 (depthAfter depth [c]) rest).map (· + 1) := by
  have own := isOpen [c] (List.prefix_refl [c])
  rw [callLength?, literalLength?_of_not_isQuote unquoted]
  by_cases opening : c = '('
  · subst opening
    rfl
  · by_cases closing : c = ')'
    · subst closing
      have inside : ¬depth ≤ 1 := by
        simp at own
        omega
      simp [inside, depthAfter]
    · simp [opening, closing, depthAfter]

theorem callLength?_unquoted {text : List Char} (unquoted : ∀ c ∈ text, isQuote c = false)
    {depth : Nat} (isOpen : StaysOpen depth text) (rest : List Char) :
    callLength? 0 depth (text ++ rest) =
      (callLength? 0 (depthAfter depth text) rest).map (· + text.length) := by
  induction text generalizing depth with
  | nil => simp [depthAfter]
  | cons c text ih =>
    obtain ⟨own, others⟩ := List.forall_mem_cons.mp unquoted
    have whole : StaysOpen depth ([c] ++ text) := isOpen
    rw [List.cons_append, callLength?_cons own whole.left, ih others whole.right, Option.map_map,
      ← whole.depthAfter_append]
    rfl

/-- The scan ends at the parenthesis that closes the call. The induction is on the arguments; what
it carries is that a parenthesis stays open all through those that are left. -/
theorem callLength?_arguments {arguments : List Argument}
    (apart : arguments.IsChain Argument.Apart) {depth : Nat}
    (isOpen : StaysOpen depth (arguments.flatMap Argument.outside))
    (last : depthAfter depth (arguments.flatMap Argument.outside) = 1) (rest : List Char) :
    callLength? 0 depth (arguments.flatMap Argument.text ++ ')' :: rest) =
      some ((arguments.flatMap Argument.text).length + 1) := by
  induction arguments generalizing depth with
  | nil =>
    have one : depth = 1 := by simpa [depthAfter] using last
    subst one
    rfl
  | cons argument arguments ih =>
    have later := apart.tail
    rw [List.flatMap_cons] at isOpen last
    rw [List.flatMap_cons, List.append_assoc]
    cases argument with
    | code text nonempty unquoted =>
      have left : StaysOpen depth text := isOpen.left
      have right := isOpen.right
      have final := isOpen.depthAfter_append.symm.trans last
      simp only [Argument.text, Argument.outside] at right final ⊢
      rw [callLength?_unquoted unquoted left, ih later right final, Option.map_some,
        List.length_append]
      congr 1
      omega
    | literal literal =>
      simp only [Argument.text, Argument.outside, List.nil_append] at isOpen last ⊢
      have next := literal.head?_ne (head?_arguments apart rest)
      rw [callLength?_literal depth literal next, ih later isOpen last, Option.map_some,
        List.length_append]
      congr 1
      omega

/-! ### Calls -/

/-- A call of a debug function. -/
structure DebugCall where
  name : List Char
  gap : List Char
  arguments : List Argument
  named : name ∈ debugNames
  blank : ∀ c ∈ gap, Text.isBlank c = true
  apart : arguments.IsChain Argument.Apart
  balanced : Balanced (arguments.flatMap Argument.outside)

namespace DebugCall

/-- The call with its parentheses. -/
def text (call : DebugCall) : List Char :=
  call.name ++ (call.gap ++ '(' :: (call.arguments.flatMap Argument.text ++ [')']))

theorem find?_text (call : DebugCall) (rest : List Char) :
    debugNames.find? (·.isPrefixOf (call.text ++ rest)) = some call.name := by
  have named := call.named
  rw [text, List.append_assoc]
  generalize call.gap ++ '(' :: (call.arguments.flatMap Argument.text ++ [')']) ++ rest = tail
  generalize call.name = name at named
  simp only [debugNames, List.mem_cons, List.not_mem_nil, or_false] at named
  rcases named with rfl | rfl
  · rfl
  · rfl

/-- The first letter of a call is the first letter of a debug function. -/
theorem exists_text_eq_cons (call : DebugCall) :
    ∃ c rest, call.text = c :: rest ∧ (c = 'p' ∨ c = 'e') := by
  have named := call.named
  rw [text]
  generalize call.gap ++ '(' :: (call.arguments.flatMap Argument.text ++ [')']) = tail
  generalize call.name = name at named
  simp only [debugNames, List.mem_cons, List.not_mem_nil, or_false] at named
  rcases named with rfl | rfl
  · exact ⟨'p', _, rfl, .inl rfl⟩
  · exact ⟨'e', _, rfl, .inr rfl⟩

end DebugCall

/-- With the first letter of a call neither a literal nor a comment begins. -/
theorem plain_of_initial {c : Char} (initial : c = 'p' ∨ c = 'e') :
    isQuote c = false ∧ c ≠ '/' := by
  rcases initial with rfl | rfl
  · exact ⟨rfl, by decide⟩
  · exact ⟨rfl, by decide⟩

/-- A debug call is measured up to its closing parenthesis, where a name can begin. -/
theorem debugLength?_text {previous : Option Char} (free : startsName previous = true)
    (call : DebugCall) (rest : List Char) :
    debugLength? previous (call.text ++ rest) = some call.text.length := by
  have scanned := callLength?_arguments call.apart call.balanced.staysOpen
    call.balanced.depthAfter_eq rest
  have shape : call.text ++ rest = call.name ++ (call.gap ++ '(' ::
      (call.arguments.flatMap Argument.text ++ ')' :: rest)) := by
    simp [DebugCall.text]
  have trimmed : Text.trimStart ((call.text ++ rest).drop call.name.length) =
      '(' :: (call.arguments.flatMap Argument.text ++ ')' :: rest) := by
    rw [shape, List.drop_left, Text.trimStart_append_of_blank call.blank,
      Text.trimStart_cons_of_not_blank rfl]
  rw [debugLength?, free, if_neg (by decide), call.find?_text]
  simp only [Option.bind_some, trimmed, scanned, Option.map_some]
  congr 1
  simp only [DebugCall.text, List.length_append, List.length_cons, List.length_nil]
  omega

end CiTranslate.Groovy
