import CsdlAudit.Ascending
import CsdlAudit.Markup.Event
import CsdlAudit.Text.Pieces

/-!
# The attributes of an element

An element looks its attributes up by their local names. Their values have characters in place of
references. All attributes of a tag are read before any is looked up, so a tag that cannot be read
is refused whatever it lacks.
-/

namespace CsdlAudit.Document

/-- **Why the blocks of a document cannot be read.** -/
inductive DocumentError where
  /-- The markup is broken. -/
  | markup (fault : Markup.Fault)
  /-- An attribute cannot be read. -/
  | malformed (fault : Markup.AttributeFault)
  /-- A reference cannot be expanded. -/
  | reference (fault : Markup.ReferenceFault)
  /-- An element lacks an attribute that it needs. -/
  | missing (element name : String)
deriving DecidableEq, Repr

/-- **Attribute values by local name**, each name once. -/
structure Attributes where
  /-- The names with their values. -/
  entries : List (String × String)
deriving DecidableEq, Repr

namespace Attributes

/-- No attributes. -/
def empty : Attributes := ⟨[]⟩

/-- One more attribute; it replaces one of the same name. -/
def set (as : Attributes) (name value : String) : Attributes :=
  ⟨as.entries.filter (fun e => e.1 != name) ++ [(name, value)]⟩

/-- The value of an attribute. -/
def get? (as : Attributes) (name : String) : Option String :=
  (as.entries.find? (fun e => e.1 == name)).map Prod.snd

/-- Whether an attribute says `true`. -/
def flag (as : Attributes) (name : String) : Bool := as.get? name == some "true"

/-- Whether an attribute does not say `false`. -/
def flagUnlessFalse (as : Attributes) (name : String) : Bool := as.get? name != some "false"

/-- The value of an attribute that `element` needs. -/
def need (as : Attributes) (element name : String) : Except DocumentError String :=
  match as.get? name with
  | some value => .ok value
  | none => .error (.missing element name)

/-- Adds written attributes in their order. -/
def addAll (as : Attributes) : List Markup.Attribute → Except DocumentError Attributes
  | [] => .ok as
  | a :: rest =>
    match Markup.expand a.raw with
    | .ok value => addAll (as.set a.localKey value) rest
    | .error fault => .error (.reference fault)

/-- **The attributes of a tag.** -/
def ofTag (tag : Markup.Tag) : Except DocumentError Attributes :=
  match addAll empty tag.attributes.attributes with
  | .error e => .error e
  | .ok as =>
    match tag.attributes.fault with
    | some fault => .error (.malformed fault)
    | none => .ok as

/-- The element in one word: its name, and its attributes in the order of their texts. -/
def rendered (as : Attributes) (element : String) : String :=
  match as.entries with
  | [] => element
  | entries =>
    let pairs := entries.map (fun e => e.1 ++ "=" ++ e.2)
    element ++ "(" ++ Text.join "," (Ascending.sort pairs) ++ ")"

end Attributes

end CsdlAudit.Document
