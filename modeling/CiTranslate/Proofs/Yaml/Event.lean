import CiTranslate.Proofs.Yaml.Stream
import CiTranslate.Yaml.Event

/-!
The events of a written document.

Each value is one run of steps from the expectation of a node to what was expected behind it
(`EventsMet`), whatever stands around it. The start of a document, marked or not, gives the same
events.
-/

namespace CiTranslate.Yaml

/-! ### Events of data -/

def wordEvent (word : String) : EventKind := .scalar {} word.toList .plain

def textEvent (text : String) : EventKind := .scalar {} text.toList (textStyle text)

mutual

/-- The events of a value. -/
def nodeEvents : Data → List EventKind
  | .list items => .sequenceStart {} :: itemEvents items ++ [.sequenceEnd]
  | .record fields => .mappingStart {} :: fieldEvents fields ++ [.mappingEnd]
  | .text value => [textEvent value]
  | .null => [wordEvent "null"]
  | .bool value => [wordEvent (if value then "true" else "false")]
  | .int value => [wordEvent (toString value)]
  | .float value => [wordEvent (doubles.write value)]

def itemEvents : List Data → List EventKind
  | [] => []
  | item :: items => nodeEvents item ++ itemEvents items

def fieldEvents : List (String × Data) → List EventKind
  | [] => []
  | (key, value) :: fields => textEvent key :: nodeEvents value ++ fieldEvents fields

end

/-! ### Runs -/

namespace Outline

/-- Meets expectations one after the other, with an event for each. -/
inductive Runs : Outline → List EventKind → Outline → Prop
  | done (outline : Outline) : Runs outline [] outline
  | meet {first : Expected} {expected : List Expected} {tokens : List Token}
      {handles : List (List Char × List Char)} {event : Event} {middle last : Outline}
      {kinds : List EventKind}
      (met : Outline.meet first ⟨tokens, expected, handles⟩ = .ok (event, middle))
      (more : Runs middle kinds last) :
      Runs ⟨tokens, first :: expected, handles⟩ (event.kind :: kinds) last

/-- A step from which such a run goes on. -/
def Begins (step : Step) (kinds : List EventKind) (last : Outline) : Prop :=
  ∃ event middle more, step = .ok (event, middle) ∧ kinds = event.kind :: more ∧
    middle.Runs more last

theorem Runs.trans {first middle last : Outline} {before after : List EventKind}
    (runs : first.Runs before middle) (more : middle.Runs after last) :
    first.Runs (before ++ after) last := by
  induction runs with
  | done outline => exact more
  | meet met _ ih => exact .meet met (ih more)

theorem Begins.runs {first : Expected} {expected : List Expected} {tokens : List Token}
    {handles : List (List Char × List Char)} {kinds : List EventKind} {last : Outline}
    (begins : Begins (Outline.meet first ⟨tokens, expected, handles⟩) kinds last) :
    Runs ⟨tokens, first :: expected, handles⟩ kinds last := by
  obtain ⟨event, middle, more, met, rfl, runs⟩ := begins
  exact .meet met runs

theorem Begins.trans {step : Step} {before after : List EventKind} {middle last : Outline}
    (begins : Begins step before middle) (more : middle.Runs after last) :
    Begins step (before ++ after) last := by
  obtain ⟨event, next, kinds, met, rfl, runs⟩ := begins
  exact ⟨event, next, kinds ++ after, met, rfl, runs.trans more⟩

/-- A run is read with as many steps as it has events. -/
theorem Runs.readFrom {outline last : Outline} {kinds : List EventKind}
    (runs : outline.Runs kinds last) (fault? : Option Fault) {steps : Nat}
    (enough : kinds.length ≤ steps) (read : List Event) :
    ∃ events : List Event, events.map Event.kind = kinds ∧
      Events.readFrom fault? steps read outline =
        Events.readFrom fault? (steps - kinds.length) (events.reverse ++ read) last := by
  induction runs generalizing steps read with
  | done outline => exact ⟨[], rfl, rfl⟩
  | @meet _ _ _ _ event _ _ kinds met _ ih =>
    obtain ⟨steps, rfl⟩ : ∃ more, steps = more + 1 := ⟨steps - 1, by simp at enough; omega⟩
    obtain ⟨events, same, found⟩ := ih (by simpa using enough) (event :: read)
    refine ⟨event :: events, by rw [List.map_cons, same], ?_⟩
    rw [Events.readFrom]
    simp only [met, found]
    simp

end Outline

/-! ### Nodes -/

/-- Kinds of tokens with which a value starts, other than a list that opens no block. -/
def startsNode : TokenKind → Bool
  | .scalar .. | .flowSequenceStart | .flowMappingStart | .blockSequenceStart
  | .blockMappingStart => true
  | _ => false

section Nodes

variable {place : Place} {token : Token} {rest : List Token} {expected : List Expected}
  {handles : List (List Char × List Char)}

theorem begins_scalar {text : List Char} {style : Style} (kind : token.kind = .scalar text style) :
    Outline.Begins (Outline.node place ⟨token :: rest, expected, handles⟩)
      [.scalar {} text style] ⟨rest, expected, handles⟩ := by
  obtain ⟨_, start, stop⟩ := token
  cases kind
  exact ⟨⟨.scalar {} text style, start⟩, _, [], by cases place <;> rfl, rfl, .done _⟩

end Nodes

/-- The events of a value are met, whatever was expected behind it. The value of a key may be a
list that opens no block. -/
structure EventsMet (data : Data) : Prop where
  node {loose : Bool} (place : Place) {front : List Token} (rest : List Token)
    (expected : List Expected) (handles : List (List Char × List Char))
    (kinds : front.map Token.kind = nodeKinds loose data)
    (inBlock : place ≠ .flow)
    (below : loose = true → place = .blockMapping ∧
      ∃ token more, rest = token :: more ∧ token.kind ≠ .blockEntry) :
    Outline.Begins (Outline.node place ⟨front ++ rest, expected, handles⟩) (nodeEvents data)
      ⟨rest, expected, handles⟩

theorem exists_cons_nodeKinds (data : Data) :
    ∃ kind more, nodeKinds false data = kind :: more ∧ startsNode kind = true := by
  cases data with
  | list items => cases items <;> exact ⟨_, _, rfl, rfl⟩
  | record fields => cases fields <;> exact ⟨_, _, rfl, rfl⟩
  | _ => exact ⟨_, _, rfl, rfl⟩

theorem exists_cons_nodeKinds_loose (loose : Bool) (data : Data) :
    ∃ kind more, nodeKinds loose data = kind :: more ∧
      (startsNode kind = true ∨ kind = .blockEntry) := by
  cases loose with
  | false =>
    obtain ⟨kind, more, shape, start⟩ := exists_cons_nodeKinds data
    exact ⟨kind, more, shape, .inl start⟩
  | true =>
    cases data with
    | list items =>
      cases items with
      | nil => exact ⟨_, _, rfl, .inl rfl⟩
      | cons item items => exact ⟨_, _, rfl, .inr rfl⟩
    | record fields => cases fields <;> exact ⟨_, _, rfl, .inl rfl⟩
    | _ => exact ⟨_, _, rfl, .inl rfl⟩

section Entries

variable {front rest : List Token} {expected : List Expected}
  {handles : List (List Char × List Char)}

theorem runs_items {entry : Expected}
    (met : ∀ {token first : Token} {more : List Token} {expected : List Expected},
      token.kind = .blockEntry → startsNode first.kind = true →
      Outline.meet entry ⟨token :: first :: more, expected, handles⟩ =
        Outline.node .block ⟨first :: more, entry :: expected, handles⟩)
    {items : List Data} (all : ∀ item ∈ items, EventsMet item)
    (kinds : front.map Token.kind = itemKinds items) :
    Outline.Runs ⟨front ++ rest, entry :: expected, handles⟩ (itemEvents items)
      ⟨rest, entry :: expected, handles⟩ := by
  induction items generalizing front with
  | nil =>
    obtain rfl : front = [] := List.map_eq_nil_iff.mp kinds
    exact .done _
  | cons item items ih =>
    obtain ⟨token, tail, rfl, mark, kinds⟩ := List.map_eq_cons_iff.mp kinds
    obtain ⟨own, others, rfl, ownKinds, otherKinds⟩ := List.map_eq_append_iff.mp kinds
    obtain ⟨kind, more, shape, start⟩ := exists_cons_nodeKinds item
    obtain ⟨first, inner, rfl, firstKind, -⟩ := List.map_eq_cons_iff.mp (ownKinds.trans shape)
    have begins := (all item (List.mem_cons_self ..)).node .block (others ++ rest)
      (entry :: expected) handles ownKinds (by simp) (fun loose => absurd loose Bool.false_ne_true)
    have later := ih (fun other mem => all other (List.mem_cons_of_mem _ mem)) otherKinds
    refine Outline.Begins.runs (Outline.Begins.trans ?_ later)
    simpa [met mark (firstKind ▸ start)] using begins

theorem meet_blockEntry (since : Mark) {token first : Token} (mark : token.kind = .blockEntry)
    (start : startsNode first.kind = true) (more : List Token) (expected : List Expected) :
    Outline.meet (.blockEntry since) ⟨token :: first :: more, expected, handles⟩ =
      Outline.node .block ⟨first :: more, .blockEntry since :: expected, handles⟩ := by
  obtain ⟨_, begin, stop⟩ := token
  cases mark
  obtain ⟨kind, _, _⟩ := first
  cases kind <;> first | rfl | simp [startsNode] at start

theorem meet_blockEntry_end (since : Mark) {token : Token} (last : token.kind = .blockEnd)
    (rest : List Token) : Outline.meet (.blockEntry since) ⟨token :: rest, expected, handles⟩ =
      .ok (⟨.sequenceEnd, token.start⟩, ⟨rest, expected, handles⟩) := by
  obtain ⟨_, start, stop⟩ := token
  cases last
  rfl

theorem meet_looseEntry {token first : Token} (mark : token.kind = .blockEntry)
    (start : startsNode first.kind = true) (more : List Token) (expected : List Expected) :
    Outline.meet .looseEntry ⟨token :: first :: more, expected, handles⟩ =
      Outline.node .block ⟨first :: more, .looseEntry :: expected, handles⟩ := by
  obtain ⟨_, begin, stop⟩ := token
  cases mark
  obtain ⟨kind, _, _⟩ := first
  cases kind <;> first | rfl | simp [startsNode] at start

theorem meet_looseEntry_end {token : Token} (other : token.kind ≠ .blockEntry) (more : List Token) :
    Outline.meet .looseEntry ⟨token :: more, expected, handles⟩ =
      .ok (⟨.sequenceEnd, token.start⟩, ⟨token :: more, expected, handles⟩) := by
  obtain ⟨kind, _, _⟩ := token
  cases kind <;> first | rfl | exact absurd rfl other

theorem meet_blockKey (since : Mark) {token first : Token} (mark : token.kind = .key)
    (start : startsNode first.kind = true) (more : List Token) :
    Outline.meet (.blockKey since) ⟨token :: first :: more, expected, handles⟩ =
      Outline.node .blockMapping
        ⟨first :: more, .blockValue :: .blockKey since :: expected, handles⟩ := by
  obtain ⟨_, begin, stop⟩ := token
  cases mark
  obtain ⟨kind, _, _⟩ := first
  cases kind <;> first | rfl | simp [startsNode] at start

theorem meet_blockKey_end (since : Mark) {token : Token} (last : token.kind = .blockEnd)
    (rest : List Token) : Outline.meet (.blockKey since) ⟨token :: rest, expected, handles⟩ =
      .ok (⟨.mappingEnd, token.start⟩, ⟨rest, expected, handles⟩) := by
  obtain ⟨_, start, stop⟩ := token
  cases last
  rfl

theorem meet_blockValue {token first : Token} (mark : token.kind = .value)
    (start : startsNode first.kind = true ∨ first.kind = .blockEntry) (more : List Token) :
    Outline.meet .blockValue ⟨token :: first :: more, expected, handles⟩ =
      Outline.node .blockMapping ⟨first :: more, expected, handles⟩ := by
  obtain ⟨_, begin, stop⟩ := token
  cases mark
  obtain ⟨kind, _, _⟩ := first
  cases kind <;> first | rfl | simp [startsNode] at start

theorem runs_fields (since : Mark) {fields : List (String × Data)}
    (all : ∀ field ∈ fields, EventsMet field.2) (kinds : front.map Token.kind = fieldKinds fields)
    (ends : ∃ token more, rest = token :: more ∧ token.kind = .blockEnd) :
    Outline.Runs ⟨front ++ rest, .blockKey since :: expected, handles⟩ (fieldEvents fields)
      ⟨rest, .blockKey since :: expected, handles⟩ := by
  induction fields generalizing front with
  | nil =>
    obtain rfl : front = [] := List.map_eq_nil_iff.mp kinds
    exact .done _
  | cons field fields ih =>
    obtain ⟨key, value⟩ := field
    obtain ⟨asked, tail, rfl, mark, kinds⟩ := List.map_eq_cons_iff.mp kinds
    obtain ⟨name, tail, rfl, nameKind, kinds⟩ := List.map_eq_cons_iff.mp kinds
    obtain ⟨colon, tail, rfl, colonKind, kinds⟩ := List.map_eq_cons_iff.mp kinds
    obtain ⟨own, others, rfl, ownKinds, otherKinds⟩ := List.map_eq_append_iff.mp kinds
    obtain ⟨kind, more, shape, start⟩ := exists_cons_nodeKinds_loose (isSimpleKey key) value
    obtain ⟨first, inner, rfl, firstKind, -⟩ := List.map_eq_cons_iff.mp (ownKinds.trans shape)
    have next : ∃ token more, others ++ rest = token :: more ∧ token.kind ≠ .blockEntry := by
      cases fields with
      | nil =>
        obtain ⟨token, more, rfl, last⟩ := ends
        obtain rfl : others = [] := List.map_eq_nil_iff.mp otherKinds
        exact ⟨token, more, rfl, by simp [last]⟩
      | cons field fields =>
        obtain ⟨token, more, rfl, mark, -⟩ := List.map_eq_cons_iff.mp otherKinds
        exact ⟨token, more ++ rest, rfl, by simp [mark]⟩
    have begins := (all (key, value) (List.mem_cons_self ..)).node .blockMapping (others ++ rest)
      (.blockKey since :: expected) handles ownKinds (by simp) (fun _ => ⟨rfl, next⟩)
    have later := ih (fun other mem => all other (List.mem_cons_of_mem _ mem)) otherKinds
    have named : Outline.Begins (Outline.meet (.blockKey since)
        ⟨asked :: name :: colon :: (first :: inner ++ (others ++ rest)), expected, handles⟩)
        [textEvent key] ⟨colon :: (first :: inner ++ (others ++ rest)),
          .blockValue :: .blockKey since :: expected, handles⟩ := by
      rw [meet_blockKey since mark (by rw [nameKind]; rfl)]
      exact begins_scalar nameKind
    have valued : Outline.Begins (Outline.meet .blockValue
        ⟨colon :: (first :: inner ++ (others ++ rest)), .blockKey since :: expected, handles⟩)
        (nodeEvents value) ⟨others ++ rest, .blockKey since :: expected, handles⟩ := by
      rw [List.cons_append, meet_blockValue colonKind (firstKind ▸ start)]
      exact begins
    have run := named.runs.trans (valued.runs.trans later)
    simpa [fieldEvents] using run

end Entries

/-! ### Values -/

theorem eventsMet_scalar {data : Data} {text : List Char} {style : Style}
    (kinds : ∀ loose, nodeKinds loose data = [.scalar text style])
    (events : nodeEvents data = [.scalar {} text style]) : EventsMet data where
  node {loose} place front rest expected handles own _ _ := by
    rw [kinds loose] at own
    obtain ⟨token, tail, rfl, kind, nothing⟩ := List.map_eq_cons_iff.mp own
    obtain rfl : tail = [] := List.map_eq_nil_iff.mp nothing
    rw [events]
    exact begins_scalar kind

theorem exists_bounds {tokens : List Token} {first last : TokenKind} {inner : List TokenKind}
    (kinds : tokens.map Token.kind = first :: (inner ++ [last])) :
    ∃ start own stop, tokens = start :: (own ++ [stop]) ∧ start.kind = first ∧
      own.map Token.kind = inner ∧ stop.kind = last := by
  obtain ⟨start, tail, rfl, startKind, kinds⟩ := List.map_eq_cons_iff.mp kinds
  obtain ⟨own, ending, rfl, ownKinds, kinds⟩ := List.map_eq_append_iff.mp kinds
  obtain ⟨stop, rest, rfl, stopKind, kinds⟩ := List.map_eq_cons_iff.mp kinds
  obtain rfl : rest = [] := List.map_eq_nil_iff.mp kinds
  exact ⟨start, own, stop, rfl, startKind, ownKinds, stopKind⟩

theorem runs_end {entry : Expected} {token : Token} {rest after : List Token}
    {expected : List Expected} {handles : List (List Char × List Char)} {kind : EventKind}
    {mark : Mark}
    (met : Outline.meet entry ⟨token :: rest, expected, handles⟩ =
      .ok (⟨kind, mark⟩, ⟨after, expected, handles⟩)) :
    Outline.Runs ⟨token :: rest, entry :: expected, handles⟩ [kind] ⟨after, expected, handles⟩ :=
  @Outline.Runs.meet entry expected _ handles ⟨kind, mark⟩ _ _ _ met (.done _)

theorem eventsMet_list {items : List Data} (all : ∀ item ∈ items, EventsMet item) :
    EventsMet (.list items) where
  node {loose} place front rest expected handles kinds inBlock below := by
    cases items with
    | nil =>
      obtain ⟨⟨_, since, _⟩, own, ⟨_, start, _⟩, rfl, rfl, empty, rfl⟩ :=
        @exists_bounds front _ _ [] kinds
      obtain rfl : own = [] := List.map_eq_nil_iff.mp empty
      exact ⟨⟨.sequenceStart {}, since⟩, _, _, by cases place <;> rfl, rfl,
        @runs_end (.flowEntry since true) _ _ _ _ _ _ start rfl⟩
    | cons item items =>
      cases loose with
      | false =>
        obtain ⟨⟨_, since, _⟩, own, stop, rfl, rfl, ownKinds, last⟩ :=
          @exists_bounds front _ _ (itemKinds (item :: items)) kinds
        have entries := @runs_items own (stop :: rest) expected handles (.blockEntry since)
          (fun mark start => meet_blockEntry since mark start _ _) _ all ownKinds
        refine ⟨⟨.sequenceStart {}, since⟩, _, _, ?_, rfl,
          entries.trans (runs_end (meet_blockEntry_end since last rest))⟩
        rw [List.cons_append, List.append_assoc]
        cases place with
        | flow => exact absurd rfl inBlock
        | block | blockMapping => rfl
      | true =>
        obtain ⟨rfl, token, more, rfl, other⟩ := below rfl
        have entries := @runs_items front (token :: more) expected handles .looseEntry
          (fun mark start => meet_looseEntry mark start _ _) _ all kinds
        obtain ⟨⟨_, start, _⟩, tail, rfl, rfl, -⟩ := List.map_eq_cons_iff.mp kinds
        exact ⟨⟨.sequenceStart {}, start⟩, _, _, rfl, rfl,
          entries.trans (runs_end (meet_looseEntry_end other more))⟩

theorem eventsMet_record {fields : List (String × Data)}
    (all : ∀ field ∈ fields, EventsMet field.2) : EventsMet (.record fields) where
  node {loose} place front rest expected handles kinds inBlock below := by
    cases fields with
    | nil =>
      obtain ⟨⟨_, since, _⟩, own, ⟨_, start, _⟩, rfl, rfl, empty, rfl⟩ :=
        @exists_bounds front _ _ [] kinds
      obtain rfl : own = [] := List.map_eq_nil_iff.mp empty
      exact ⟨⟨.mappingStart {}, since⟩, _, _, by cases place <;> rfl, rfl,
        @runs_end (.flowKey since true) _ _ _ _ _ _ start rfl⟩
    | cons field fields =>
      obtain ⟨⟨_, since, _⟩, own, stop, rfl, rfl, ownKinds, last⟩ :=
        @exists_bounds front _ _ (fieldKinds (field :: fields)) kinds
      have entries := @runs_fields own (stop :: rest) expected handles since _ all ownKinds
        ⟨stop, rest, rfl, last⟩
      refine ⟨⟨.mappingStart {}, since⟩, _, _, ?_, rfl,
        entries.trans (runs_end (meet_blockKey_end since last rest))⟩
      rw [List.cons_append, List.append_assoc]
      cases place with
      | flow => exact absurd rfl inBlock
      | block | blockMapping => rfl

theorem eventsMet (data : Data) : EventsMet data := by
  induction data using Data.induct with
  | list items all => exact eventsMet_list all
  | record fields all => exact eventsMet_record all
  | null | bool | int | float | text => exact eventsMet_scalar (fun _ => rfl) rfl

/-! ### Documents -/

theorem length_itemEvents_le {items : List Data} (all : ∀ item ∈ items,
    (nodeEvents item).length ≤ 2 * (nodeKinds false item).length) :
    (itemEvents items).length + 2 * items.length ≤ 2 * (itemKinds items).length := by
  induction items with
  | nil => exact Nat.le_refl 0
  | cons item items ih =>
    have own := all item (List.mem_cons_self ..)
    have others := ih fun other mem => all other (List.mem_cons_of_mem _ mem)
    simp only [itemEvents, itemKinds, List.cons_append, List.length_append, List.length_cons]
    omega

theorem length_fieldEvents_le {fields : List (String × Data)} (all : ∀ field ∈ fields,
    ∀ loose, (nodeEvents field.2).length ≤ 2 * (nodeKinds loose field.2).length) :
    (fieldEvents fields).length ≤ 2 * (fieldKinds fields).length := by
  induction fields with
  | nil => exact Nat.le_refl 0
  | cons field fields ih =>
    have own := all field (List.mem_cons_self ..) (isSimpleKey field.1)
    have others := ih fun other mem => all other (List.mem_cons_of_mem _ mem)
    simp only [fieldEvents, fieldKinds, List.cons_append, List.length_append, List.length_cons]
    omega

/-- There are at most two events for every token of a value. -/
theorem length_nodeEvents_le (data : Data) (loose : Bool) :
    (nodeEvents data).length ≤ 2 * (nodeKinds loose data).length := by
  induction data using Data.induct generalizing loose with
  | list items all =>
    have inner := length_itemEvents_le fun item mem => all item mem false
    cases items with
    | nil => exact (by decide : 2 ≤ 4)
    | cons item items =>
      cases loose <;>
        simp only [nodeEvents, nodeKinds, List.length_append, List.length_cons, List.length_nil,
          Bool.false_eq_true, if_true, if_false] at inner ⊢ <;> omega
  | record fields all =>
    have inner := length_fieldEvents_le fun field mem => all field mem
    cases fields with
    | nil => exact (by decide : 2 ≤ 4)
    | cons field fields =>
      simp only [nodeEvents, nodeKinds, List.length_append, List.length_cons, List.length_nil]
        at inner ⊢
      omega
  | null | bool | int | float | text => exact Nat.le_succ 1

/-- Where the content of a document starts, a value is met. -/
theorem runs_documentStart (started : Bool) {front rest : List Token} {first : Token}
    (kinds : front.map Token.kind = startKinds started) (start : startsNode first.kind = true)
    {kinds' : List EventKind} {last : Outline}
    (content : Outline.Begins (Outline.node .block ⟨first :: rest, [.documentEnd], coreHandles⟩)
      kinds' last) :
    Outline.Runs ⟨front ++ first :: rest, [.document false], coreHandles⟩
      (.documentStart :: kinds') last := by
  cases started with
  | false =>
    obtain rfl : front = [] := List.map_eq_nil_iff.mp kinds
    have met : Outline.meet (.document false) ⟨first :: rest, [], coreHandles⟩ =
        .ok (⟨.documentStart, first.start⟩,
          ⟨first :: rest, [.node .block, .documentEnd], coreHandles⟩) := by
      obtain ⟨kind, _, _⟩ := first
      cases kind <;> first | rfl | simp [startsNode] at start
    exact .meet met (@Outline.Begins.runs (.node .block) _ _ _ _ _ content)
  | true =>
    obtain ⟨⟨_, mark, _⟩, nothing, rfl, rfl, empty⟩ := List.map_eq_cons_iff.mp kinds
    obtain rfl : nothing = [] := List.map_eq_nil_iff.mp empty
    have met : Outline.meet .documentContent ⟨first :: rest, [.documentEnd], coreHandles⟩ =
        Outline.node .block ⟨first :: rest, [.documentEnd], coreHandles⟩ := by
      obtain ⟨kind, _, _⟩ := first
      cases kind <;> first | rfl | simp [startsNode] at start
    refine @Outline.Runs.meet (.document false) [] _ _ ⟨.documentStart, mark⟩
      ⟨first :: rest, [.documentContent, .documentEnd], coreHandles⟩ _ _ rfl ?_
    exact Outline.Begins.runs (met ▸ content)

theorem runs_documentEnd {token : Token} (ends : token.kind = .streamEnd)
    (handles : List (List Char × List Char)) :
    Outline.Runs ⟨[token], [.documentEnd], handles⟩ [.documentEnd, .streamEnd]
      ⟨[], [], coreHandles⟩ := by
  obtain ⟨_, mark, _⟩ := token
  cases ends
  exact @Outline.Runs.meet .documentEnd [] _ _ ⟨.documentEnd, mark⟩ _ _ _ rfl
    (@Outline.Runs.meet (.document true) [] _ _ ⟨.streamEnd, mark⟩ _ _ _ rfl (.done _))

/-- The events of a document are those of its data, whether its start is marked or not. -/
theorem exists_events (started cut : Bool) {field : String × Data} {fields : List (String × Data)}
    {text : String}
    (shape : text.toList =
      startMark started ++ cutEnd cut (writeDocument (.record (field :: fields))))
    (allowed : ∀ c ∈ text.toList, isAllowed c = true)
    (last : cut = true → EndsSolid (Data.lastTextOfFields? (field :: fields))) :
    ∃ events, Events.ofText text = ⟨events, none⟩ ∧ events.map Event.kind =
      .documentStart :: nodeEvents (.record (field :: fields)) ++ [.documentEnd, .streamEnd] := by
  obtain ⟨tokens, found, kinds⟩ := exists_tokens started cut shape allowed last
  obtain ⟨stream, rest, rfl, -, kinds⟩ := List.map_eq_cons_iff.mp
    (show tokens.map Token.kind = .streamStart :: (startKinds started ++
      nodeKinds false (.record (field :: fields)) ++ [.streamEnd]) from kinds)
  obtain ⟨body, ending, rfl, bodyKinds, endKinds⟩ := List.map_eq_append_iff.mp kinds
  obtain ⟨front, own, rfl, frontKinds, ownKinds⟩ := List.map_eq_append_iff.mp bodyKinds
  obtain ⟨stop, nothing, rfl, stopKind, empty⟩ := List.map_eq_cons_iff.mp endKinds
  obtain rfl : nothing = [] := List.map_eq_nil_iff.mp empty
  obtain ⟨kind, more, start, starts⟩ := exists_cons_nodeKinds (.record (field :: fields))
  obtain ⟨first, inner, rfl, firstKind, -⟩ := List.map_eq_cons_iff.mp (ownKinds.trans start)
  have content := (eventsMet (.record (field :: fields))).node .block [stop] [.documentEnd]
    coreHandles ownKinds (by simp) (fun loose => absurd loose Bool.false_ne_true)
  have run := runs_documentStart started frontKinds (firstKind ▸ starts)
    (content.trans (runs_documentEnd stopKind coreHandles))
  have bound := length_nodeEvents_le (.record (field :: fields)) false
  rw [← ownKinds, List.length_map] at bound
  have enough : (EventKind.documentStart :: (nodeEvents (.record (field :: fields)) ++
      [.documentEnd, .streamEnd])).length ≤
      4 * (stream :: (front ++ first :: inner ++ [stop])).length + 4 := by
    simp only [List.length_cons, List.length_append, List.length_nil] at bound ⊢
    omega
  obtain ⟨events, same, result⟩ := run.readFrom none enough []
  have done (steps : Nat) (read : List Event) :
      Events.readFrom none steps read ⟨[], [], coreHandles⟩ = ⟨read.reverse, none⟩ := by
    cases steps <;> rfl
  refine ⟨events, ?_, same⟩
  rw [done, List.append_nil, List.reverse_reverse] at result
  rw [Events.ofText, found, ← result]
  simp

end CiTranslate.Yaml
