import CsdlAudit.Markup.Event
import CsdlAudit.Verdict

/-!
# Checking one document

`check` judges whether a document is well formed, has a proper root, and gives each element the
attributes that it needs. What stands inside an annotation is free of the last demand.
-/

namespace CsdlAudit.Document

/-- The type of an error in the markup. -/
def syntaxType : String := "syntax"

/-- The type of an error in the shape of the model. -/
def structureType : String := "structure"

/-- **The attributes that elements need.** -/
def neededAttributes : List (String × List String) :=
  [("Schema", ["Namespace"]),
   ("EntityType", ["Name"]),
   ("ComplexType", ["Name"]),
   ("EnumType", ["Name"]),
   ("Member", ["Name"]),
   ("TypeDefinition", ["Name", "UnderlyingType"]),
   ("Property", ["Name", "Type"]),
   ("NavigationProperty", ["Name", "Type"]),
   ("PropertyRef", ["Name"]),
   ("Action", ["Name"]),
   ("Function", ["Name"]),
   ("Parameter", ["Name", "Type"]),
   ("ReturnType", ["Type"]),
   ("Term", ["Name", "Type"]),
   ("EntityContainer", ["Name"]),
   ("EntitySet", ["Name", "EntityType"]),
   ("NavigationPropertyBinding", ["Path", "Target"]),
   ("Singleton", ["Name", "Type"]),
   ("ActionImport", ["Name", "Action"]),
   ("FunctionImport", ["Name", "Function"]),
   ("Annotations", ["Target"]),
   ("Annotation", ["Term"])]

/-- The attributes that an element needs, `none` if it has no entry. -/
def neededBy? (element : String) : Option (List String) :=
  (neededAttributes.find? (fun e => e.1 == element)).map Prod.snd

/-- **A thing found wrong in a document.** -/
inductive Finding where
  /-- The markup is broken at a byte. -/
  | broken (position : Nat) (fault : Markup.Fault)
  /-- An attribute of an element cannot be read. -/
  | malformed (element : String) (fault : Markup.AttributeFault)
  /-- An element lacks the attribute `needed`; `label` is the written value of its name. -/
  | missing (element : String) (label : Option String) (needed : String)
  /-- The root is neither of the two allowed elements. -/
  | badRoot (element : String)
  /-- Elements are open where the document ends. -/
  | leftOpen (count : Nat)
  /-- There is no element. -/
  | noRoot
deriving DecidableEq, Repr

/-- The type of a finding. -/
def Finding.type : Finding → String
  | .missing .. | .badRoot .. => structureType
  | .broken .. | .malformed .. | .leftOpen .. | .noRoot => syntaxType

/-- A finding in words. -/
def Finding.message : Finding → String
  | .broken position fault =>
    "XML syntax error at byte " ++ toString position ++ ": " ++ fault.message
  | .malformed element fault => "Malformed attribute on <" ++ element ++ ">: " ++ fault.message
  | .missing element label needed =>
    "<" ++ element ++ ">" ++ (label.map fun l => " '" ++ l ++ "'").getD "" ++
      " is missing required attribute '" ++ needed ++ "'"
  | .badRoot element =>
    "Root element must be <edmx:Edmx> or <Schema>, found <" ++ element ++ ">"
  | .leftOpen count =>
    "Unexpected end of document: " ++ toString count ++ " element(s) left open"
  | .noRoot => "Document has no root element"

/-- **Where checking stands.** -/
structure Checker where
  /-- What was found, in order. -/
  findings : List Finding
  /-- How many elements are open. -/
  depth : Nat
  /-- Whether an element was met. -/
  rootSeen : Bool
  /-- How many blocks stand outside of annotations. -/
  blocks : Nat
  /-- The depth at which the outermost open annotation stands. -/
  annotatedAt : Option Nat
deriving DecidableEq, Repr

/-- What an element outside of annotations lacks. -/
def lacking (tag : Markup.Tag) : List Finding :=
  match neededBy? tag.localName with
  | none => []
  | some needed =>
    let reading := tag.attributes
    match reading.fault with
    | some fault => [.malformed tag.localName fault]
    | none =>
      let label := (reading.attributes.find? (fun a => a.localKey == "Name")).map (·.raw)
      (needed.filter (fun n => !reading.attributes.any (fun a => a.localKey == n))).map
        (.missing tag.localName label)

namespace Checker

/-- Nothing was met yet. -/
def initial : Checker := ⟨[], 0, false, 0, none⟩

/-- What is wrong with the first element. -/
def rootFindings (c : Checker) (tag : Markup.Tag) : List Finding :=
  if c.rootSeen ∨ tag.localName = "Edmx" ∨ tag.localName = "Schema" then []
  else [.badRoot tag.localName]

/-- A tag is met; it `opens` its element unless the element has no content. -/
def enter (c : Checker) (tag : Markup.Tag) (opens : Bool) : Checker :=
  let depth := if opens then c.depth + 1 else c.depth
  match c.annotatedAt with
  | some _ =>
    { c with findings := c.findings ++ c.rootFindings tag, depth := depth, rootSeen := true }
  | none =>
    ⟨c.findings ++ c.rootFindings tag ++ lacking tag, depth, true,
      if tag.localName = "Schema" then c.blocks + 1 else c.blocks,
      if tag.localName = "Annotation" ∧ opens then some c.depth else none⟩

/-- The innermost element closes. -/
def leave (c : Checker) : Checker :=
  { c with
    depth := c.depth - 1
    annotatedAt := if c.annotatedAt = some (c.depth - 1) then none else c.annotatedAt }

/-- One event. -/
def advance (c : Checker) : Markup.Event → Checker
  | .opening tag => c.enter tag true
  | .empty tag => c.enter tag false
  | .closing => c.leave
  | .text _ => c

/-- What is wrong where reading ends. -/
def endFindings (c : Checker) (fault : Option (Markup.Fault × Nat)) : List Finding :=
  (match fault with
    | some (f, position) => [.broken position f]
    | none => if 0 < c.depth then [.leftOpen c.depth] else []) ++
    (if c.rootSeen then [] else [.noRoot])

end Checker

/-- The state of checking behind the last event of a reading. -/
def checked (reading : Markup.Reading) : Checker := reading.events.foldl Checker.advance .initial

/-- All that is wrong with a document, given its reading. -/
def findings (reading : Markup.Reading) : List Finding :=
  (checked reading).findings ++ (checked reading).endFindings reading.fault

/-- The warning about a document without blocks. -/
def noBlockWarning : String := "Document contains no <Schema> element"

/-- **The verdict on a reading.** -/
def judge (reading : Markup.Reading) (fileName : String) : FileVerdict :=
  let found := findings reading
  let verdict := found.foldl (fun v f => v.addError f.type f.message) (.clean fileName)
  if found = [] ∧ (checked reading).blocks = 0 then verdict.addWarning noBlockWarning
  else verdict

/-- **The verdict on a document.** -/
def check (document fileName : String) : FileVerdict := judge (Markup.read document) fileName

end CsdlAudit.Document
