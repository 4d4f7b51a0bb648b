import CsdlAudit.Document.OpenElement

/-!
# The schema blocks of a document

`readBlocks` folds the events of a document over the stack of its open elements. A block is complete
when its element closes. Everything inside an annotation is a piece of the annotation's value and
nothing else.
-/

namespace CsdlAudit.Document

/-- **Where reading blocks stands.** -/
structure BlockReader where
  /-- The open elements, innermost first. -/
  stack : List OpenElement
  /-- The blocks that are complete, in closing order. -/
  blocks : List SchemaBlock
deriving DecidableEq, Repr

namespace BlockReader

/-- Nothing is open and no block complete. -/
def initial : BlockReader := ⟨[], []⟩

/-- The stack with one more piece in the annotation that is open, if one is. -/
def addPiece? (piece : String) : List OpenElement → Option (List OpenElement)
  | [] => none
  | .applied a pieces :: outer => some (.applied a (pieces ++ [piece]) :: outer)
  | e :: outer => (addPiece? piece outer).map (e :: ·)

/-- The stack with one more part in the key of its innermost structured type. -/
def addKey (path : String) : List OpenElement → List OpenElement
  | [] => []
  | e :: outer => if e.isStructured then e.addKey path :: outer else e :: addKey path outer

/-- The stack with a detail in its innermost element. -/
def addDetail (detail : Opened) : List OpenElement → List OpenElement
  | [] => []
  | e :: outer => e.addDetail detail :: outer

/-- The stack when a tag has opened something. -/
def push (opened : Opened) (stack : List OpenElement) : List OpenElement :=
  match opened with
  | .element e => e :: stack
  | .keyPath path => .other :: addKey path stack
  | detail => .other :: addDetail detail stack

/-- **A tag opens an element.** -/
def enter (r : BlockReader) (tag : Markup.Tag) : Except DocumentError BlockReader := do
  let as ← Attributes.ofTag tag
  match addPiece? (as.rendered tag.localName) r.stack with
  | some stack => return { r with stack := .other :: stack }
  | none => return { r with stack := push (← Opened.ofTag tag.localName as) r.stack }

/-- **The innermost element closes.** -/
def leave (r : BlockReader) : BlockReader :=
  match r.stack with
  | [] => r
  | .block b :: outer => ⟨outer, r.blocks ++ [b]⟩
  | [_] => { r with stack := [] }
  | child :: parent :: outer => { r with stack := child.attach parent :: outer }

/-- Text stands between tags. -/
def text (r : BlockReader) (raw : String) : Except DocumentError BlockReader :=
  match Markup.expand raw with
  | .error fault => .error (.reference fault)
  | .ok s =>
    match addPiece? s r.stack with
    | some stack => .ok { r with stack := stack }
    | none => .ok r

/-- One event. -/
def advance (r : BlockReader) : Markup.Event → Except DocumentError BlockReader
  | .opening tag => r.enter tag
  | .empty tag => do return (← r.enter tag).leave
  | .closing => .ok r.leave
  | .text raw => r.text raw

/-- The events in order, up to the first that cannot be taken. -/
def run (r : BlockReader) : List Markup.Event → Except DocumentError BlockReader
  | [] => .ok r
  | e :: rest =>
    match r.advance e with
    | .ok r' => run r' rest
    | .error error => .error error

end BlockReader

/-- **The schema blocks of a reading.** A fault in the markup comes after the faults of the events
before it. -/
def blocksOf (reading : Markup.Reading) : Except DocumentError (List SchemaBlock) :=
  match BlockReader.initial.run reading.events with
  | .error error => .error error
  | .ok r =>
    match reading.fault with
    | some (fault, _) => .error (.markup fault)
    | none => .ok r.blocks

/-- **The schema blocks that a document declares.** -/
def readBlocks (document : String) : Except DocumentError (List SchemaBlock) :=
  blocksOf (Markup.read document)

end CsdlAudit.Document
