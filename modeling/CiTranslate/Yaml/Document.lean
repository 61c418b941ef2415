import CiTranslate.Yaml.Error
import CiTranslate.Yaml.Event

/-!
The first document of a text: its events, with the anchor that each alias stands for.

An anchor is numbered by how many names are known when it is met. Aliases keep the number
that their name has at that point, and a number stands for the last node that was given it.
-/

namespace CiTranslate.Yaml

inductive NodeKind where
  | alias (number : Nat)
  | scalar (tag : Option (List Char)) (text : List Char) (style : Style)
  | sequenceStart (tag : Option (List Char))
  | sequenceEnd
  | mappingStart (tag : Option (List Char))
  | mappingEnd
  /-- The only node of a text without documents. -/
  | nothing
  deriving DecidableEq, Repr

structure Document where
  nodes : Array (NodeKind × Mark) := #[]
  /-- The numbers of the known anchors. -/
  numbers : List (List Char × Nat) := []
  /-- The index of the node that a number stands for. -/
  indices : List (Nat × Nat) := []
  /-- The error that cut the document short. -/
  failure? : Option Error := none
  /-- Whether the document is followed by anything. -/
  followed : Bool := false

namespace Document

def push (document : Document) (kind : NodeKind) (mark : Mark) : Document :=
  { document with nodes := document.nodes.push (kind, mark) }

/-- Notes the anchor of the node that comes next. -/
def note (document : Document) (properties : Properties) : Document :=
  match properties.anchor with
  | none => document
  | some name =>
    let others := document.numbers.filter (·.1 != name)
    let number := document.numbers.length
    { document with
      numbers := (name, number) :: others
      indices := (number, document.nodes.size) :: document.indices }

/-- Adds the events up to the end of the document. -/
def addEvents (fault? : Option Fault) (document : Document) : List Event → Document
  | [] => { document with failure? := fault?.map .form }
  | ⟨kind, mark⟩ :: events =>
    match kind with
    | .streamEnd => if document.nodes.isEmpty then document.push .nothing mark else document
    | .documentStart => addEvents fault? document events
    | .documentEnd =>
      let followed := match events with
        | ⟨.streamEnd, _⟩ :: _ => false
        | _ => true
      { document with followed }
    | .alias name =>
      match document.numbers.lookup name with
      | some number => addEvents fault? (document.push (.alias number) mark) events
      | none => { document with failure? := some (.unknownAnchor mark) }
    | .scalar properties text style =>
      addEvents fault? ((document.note properties).push (.scalar properties.tag text style) mark)
        events
    | .sequenceStart properties =>
      addEvents fault? ((document.note properties).push (.sequenceStart properties.tag) mark)
        events
    | .sequenceEnd => addEvents fault? (document.push .sequenceEnd mark) events
    | .mappingStart properties =>
      addEvents fault? ((document.note properties).push (.mappingStart properties.tag) mark) events
    | .mappingEnd => addEvents fault? (document.push .mappingEnd mark) events

/-- The first document of a text. -/
def ofText (text : String) : Document :=
  let read := Events.ofText text
  addEvents read.fault? {} read.events

/-- The error of a document that ends before its last node. -/
def ending (document : Document) : Error := document.failure?.getD .noDocument

end Document

end CiTranslate.Yaml
