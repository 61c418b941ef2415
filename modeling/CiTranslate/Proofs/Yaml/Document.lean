import CiTranslate.Proofs.Yaml.Event
import CiTranslate.Node.Decode

/-!
Documents that are read alike.

Where the nodes of two documents stand in their texts has no part in their values, only in their
errors (`toOption_read_eq`). So a written document has the value that it has with the start of a
document marked, and without its last line end (`toOption_decodeYaml_eq`).
-/

namespace CiTranslate.Yaml

/-! ### Documents -/

/-- Documents that differ at most in where their nodes stand, and in how they are cut short. -/
structure Document.Alike (a b : Document) : Prop where
  nodes : a.nodes.toList.map Prod.fst = b.nodes.toList.map Prod.fst
  numbers : a.numbers = b.numbers
  indices : a.indices = b.indices
  failure : a.failure?.isSome = b.failure?.isSome
  followed : a.followed = b.followed

namespace Document

variable {a b : Document}

theorem Alike.size (alike : a.Alike b) : a.nodes.size = b.nodes.size := by
  simpa using congrArg List.length alike.nodes

theorem Alike.push (alike : a.Alike b) (kind : NodeKind) (mark mark' : Mark) :
    (a.push kind mark).Alike (b.push kind mark') where
  nodes := by simp [Document.push, alike.nodes]
  numbers := alike.numbers
  indices := alike.indices
  failure := alike.failure
  followed := alike.followed

theorem Alike.note (alike : a.Alike b) (properties : Properties) :
    (a.note properties).Alike (b.note properties) := by
  unfold Document.note
  cases properties.anchor with
  | none => exact alike
  | some name =>
    exact ⟨alike.nodes, by simp [alike.numbers], by simp [alike.indices, alike.numbers, alike.size],
      alike.failure, alike.followed⟩

/-- Events of the same kinds make documents that are alike. -/
theorem Alike.addEvents (alike : a.Alike b) {events others : List Event}
    (same : events.map Event.kind = others.map Event.kind) {fault? fault?' : Option Fault}
    (faults : fault?.isSome = fault?'.isSome) :
    (addEvents fault? a events).Alike (addEvents fault?' b others) := by
  induction events generalizing a b others with
  | nil =>
    obtain rfl : others = [] := List.map_eq_nil_iff.mp same.symm
    exact ⟨alike.nodes, alike.numbers, alike.indices, by simpa [Document.addEvents] using faults,
      alike.followed⟩
  | cons event events ih =>
    obtain ⟨⟨kind, mark'⟩, rest, rfl, own, more⟩ := List.map_eq_cons_iff.mp same.symm
    obtain ⟨_, mark⟩ := event
    obtain rfl : kind = _ := own
    have empty : a.nodes.isEmpty = b.nodes.isEmpty := by
      change decide (a.nodes.size = 0) = decide (b.nodes.size = 0)
      rw [alike.size]
    cases kind with
    | streamEnd =>
      simp only [Document.addEvents, empty]
      split
      · exact alike.push _ _ _
      · exact alike
    | documentStart => exact @ih a b alike rest more.symm
    | documentEnd =>
      refine ⟨alike.nodes, alike.numbers, alike.indices, alike.failure, ?_⟩
      cases events with
      | nil =>
        obtain rfl : rest = [] := List.map_eq_nil_iff.mp more
        rfl
      | cons next events =>
        obtain ⟨⟨_, _⟩, others, rfl, rfl, -⟩ := List.map_eq_cons_iff.mp more
        obtain ⟨kind, _⟩ := next
        cases kind <;> rfl
    | «alias» name =>
      simp only [Document.addEvents, ← alike.numbers]
      cases a.numbers.lookup name with
      | none => exact ⟨alike.nodes, rfl, alike.indices, rfl, alike.followed⟩
      | some number => exact @ih _ _ (alike.push _ _ _) rest more.symm
    | scalar properties text style =>
      exact @ih _ _ ((alike.note properties).push _ _ _) rest more.symm
    | sequenceStart properties =>
      exact @ih _ _ ((alike.note properties).push _ _ _) rest more.symm
    | sequenceEnd => exact @ih _ _ (alike.push _ _ _) rest more.symm
    | mappingStart properties =>
      exact @ih _ _ ((alike.note properties).push _ _ _) rest more.symm
    | mappingEnd => exact @ih _ _ (alike.push _ _ _) rest more.symm

end Document

/-! ### Values -/

section Values

variable {a b : Document}

theorem Document.Alike.getElem? (alike : a.Alike b) (i : Nat) :
    a.nodes[i]? = none ∧ b.nodes[i]? = none ∨
      ∃ kind mark mark', a.nodes[i]? = some (kind, mark) ∧ b.nodes[i]? = some (kind, mark') := by
  have same := congrArg (·[i]?) alike.nodes
  simp only [List.getElem?_map, Array.getElem?_toList] at same
  cases first : a.nodes[i]? with
  | none =>
    rw [first] at same
    exact .inl ⟨rfl, Option.map_eq_none_iff.mp same.symm⟩
  | some node =>
    rw [first] at same
    obtain ⟨⟨_, mark'⟩, second, rfl⟩ := Option.map_eq_some_iff.mp same.symm
    exact .inr ⟨_, _, mark', rfl, second⟩

/-- Both fail, or both give the same. -/
theorem toOption_cases {ε α : Type} {x y : Except ε α} (same : x.toOption = y.toOption) :
    (∃ e e', x = .error e ∧ y = .error e') ∨ ∃ value, x = .ok value ∧ y = .ok value := by
  cases x with
  | error e =>
    cases y with
    | error e' => exact .inl ⟨e, e', rfl, rfl⟩
    | ok value => cases same
  | ok value =>
    cases y with
    | error e' => cases same
    | ok other =>
      cases same
      exact .inr ⟨value, rfl, rfl⟩

theorem toOption_map {ε α β : Type} {x y : Except ε α} (same : x.toOption = y.toOption)
    (f : α → β) :
    (x.map f).toOption = (y.map f).toOption := by
  obtain ⟨e, e', rfl, rfl⟩ | ⟨value, rfl, rfl⟩ := toOption_cases same <;> rfl

theorem toOption_readItems (alike : a.Alike b) {f g : Nat → Progress → Reading Value}
    (same : ∀ index progress, (f index progress).toOption = (g index progress).toOption)
    (steps : Nat) (items : List Value) (progress : Progress) :
    (readItems a f steps items progress).toOption =
      (readItems b g steps items progress).toOption := by
  induction steps generalizing items progress with
  | zero => rfl
  | succ steps ih =>
    rw [readItems, readItems]
    obtain ⟨first, second⟩ | ⟨kind, mark, mark', first, second⟩ := alike.getElem? progress.index
    · rw [first, second]
      rfl
    · rw [first, second]
      cases kind
      case sequenceEnd => rfl
      all_goals
        obtain ⟨e, e', left, right⟩ | ⟨⟨item, after⟩, left, right⟩ :=
          toOption_cases (same items.length progress)
        · simp only [left, right]
          rfl
        · simp only [left, right]
          exact ih _ _

theorem toOption_readEntries (alike : a.Alike b) {f g : Progress → Reading Value}
    {f' g' : Path → Progress → Reading Value}
    (keys : ∀ progress, (f progress).toOption = (g progress).toOption)
    (values : ∀ path path' progress, (f' path progress).toOption = (g' path' progress).toOption)
    (path path' : Path) (mark mark' : Mark) (steps : Nat) (entries : List (Value × Value))
    (progress : Progress) :
    (readEntries a f f' path mark steps entries progress).toOption =
      (readEntries b g g' path' mark' steps entries progress).toOption := by
  induction steps generalizing entries progress with
  | zero => rfl
  | succ steps ih =>
    rw [readEntries, readEntries]
    obtain ⟨first, second⟩ | ⟨kind, mark, mark', first, second⟩ := alike.getElem? progress.index
    · rw [first, second]
      rfl
    · rw [first, second]
      have valued := values (path.valueOf kind) (path'.valueOf kind)
      cases kind
      case mappingEnd => rfl
      all_goals
        obtain ⟨e, e', left, right⟩ | ⟨⟨key, middle⟩, left, right⟩ := toOption_cases (keys progress)
        · simp only [left, right]
          rfl
        · simp only [left, right]
          cases entries.find? fun entry => entry.1.same key with
          | some known => rfl
          | none =>
            obtain ⟨e, e', left, right⟩ | ⟨⟨value, after⟩, left, right⟩ :=
              toOption_cases (valued middle)
            · simp only [left, right]
              rfl
            · simp only [left, right]
              exact ih _ _

theorem toOption_follow (alike : a.Alike b) {f g : Progress → Reading Value}
    (same : ∀ progress, (f progress).toOption = (g progress).toOption) (progress : Progress) :
    (follow a f progress).toOption = (follow b g progress).toOption := by
  rw [follow, follow]
  obtain ⟨first, second⟩ | ⟨kind, mark, mark', first, second⟩ := alike.getElem? progress.index
  · rw [first, second]
    exact same progress
  · rw [first, second]
    cases kind with
    | «alias» number =>
      simp only [alike.size, alike.indices]
      split
      · rfl
      · cases b.indices.lookup number with
        | none => rfl
        | some index => exact toOption_map (same _) _
    | _ => exact same progress

theorem toOption_readNode (alike : a.Alike b) (depth : Nat) (path path' : Path)
    (progress : Progress) :
    (readNode a depth path progress).toOption = (readNode b depth path' progress).toOption := by
  induction depth generalizing path path' progress with
  | zero =>
    rw [readNode, readNode]
    obtain ⟨first, second⟩ | ⟨kind, mark, mark', first, second⟩ := alike.getElem? progress.index
    · rw [first, second]
      rfl
    · rw [first, second]
      cases kind with
      | scalar tag text style =>
        dsimp only
        split <;> rfl
      | _ => rfl
  | succ depth ih =>
    rw [readNode, readNode]
    obtain ⟨first, second⟩ | ⟨kind, mark, mark', first, second⟩ := alike.getElem? progress.index
    · rw [first, second]
      rfl
    · rw [first, second]
      cases kind with
      | scalar tag text style =>
        dsimp only
        split <;> rfl
      | sequenceStart tag =>
        dsimp only
        rw [alike.size]
        have nodes (index : Nat) := toOption_follow alike fun progress => ih (path.item index)
          (path'.item index) progress
        exact toOption_map (toOption_readItems alike nodes _ _ _) _
      | mappingStart tag =>
        dsimp only
        rw [alike.size]
        have nodes (path path' : Path) :=
          toOption_follow alike fun progress => ih path path' progress
        exact toOption_map
          (toOption_readEntries alike (nodes path path') nodes path path' mark mark' _ _ _) _
      | _ => rfl

/-- Documents that are alike have the same value. -/
theorem toOption_read_eq {text other : String}
    (alike : (Document.ofText text).Alike (Document.ofText other)) :
    (read text).toOption = (read other).toOption := by
  have values := toOption_follow alike (toOption_readNode alike maxDepth .root .root) {}
  have failure := alike.failure
  rw [read, read]
  obtain ⟨e, e', left, right⟩ | ⟨⟨value, after⟩, left, right⟩ := toOption_cases values
  · simp only [left, right]
    rfl
  · simp only [left, right, alike.followed]
    cases first : (Document.ofText text).failure? with
    | some error =>
      obtain ⟨error', second⟩ := Option.isSome_iff_exists.mp (failure.symm.trans (first ▸ rfl))
      rw [second]
      rfl
    | none =>
      have second : (Document.ofText other).failure? = none := by
        rw [first] at failure
        exact Option.isNone_iff_eq_none.mp (by simpa using failure.symm)
      rw [second]

end Values

/-- What is written has the same value with its start marked and without its last line end. -/
theorem toOption_decodeYaml_eq (started cut : Bool) {field : String × Data}
    {fields : List (String × Data)}
    (allowed : ∀ c ∈ writeDocument (.record (field :: fields)), isAllowed c = true)
    (last : cut = true → EndsSolid (Data.lastTextOfFields? (field :: fields))) :
    (Node.decodeYaml (String.ofList
        (startMark started ++ cutEnd cut (writeDocument (.record (field :: fields)))))).toOption =
      (Node.decodeYaml (write (.record (field :: fields)))).toOption := by
  have marked : ∀ c ∈ startMark started, isAllowed c = true := by cases started <;> decide
  have kept : ∀ c ∈ cutEnd cut (writeDocument (.record (field :: fields))), isAllowed c = true := by
    cases cut with
    | false => exact allowed
    | true => exact fun c mem => allowed c (List.dropLast_subset _ mem)
  obtain ⟨events, found, kinds⟩ := exists_events started cut (String.toList_ofList)
    (String.toList_ofList ▸ List.forall_mem_append.mpr ⟨marked, kept⟩) last
  obtain ⟨others, found', kinds'⟩ := @exists_events false false field fields
    (write (.record (field :: fields))) String.toList_ofList (String.toList_ofList ▸ allowed)
    fun cut => absurd cut Bool.false_ne_true
  have alike : (Document.ofText (String.ofList
      (startMark started ++ cutEnd cut (writeDocument (.record (field :: fields)))))).Alike
      (Document.ofText (write (.record (field :: fields)))) := by
    unfold Document.ofText
    rw [found, found']
    exact Document.Alike.addEvents ⟨rfl, rfl, rfl, rfl, rfl⟩ (kinds.trans kinds'.symm) rfl
  unfold Node.decodeYaml
  obtain ⟨e, e', left, right⟩ | ⟨value, left, right⟩ := toOption_cases (toOption_read_eq alike)
  · rw [left, right]
    rfl
  · rw [left, right]

end CiTranslate.Yaml
