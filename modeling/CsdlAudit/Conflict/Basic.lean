import CsdlAudit.Ascending
import CsdlAudit.Json
import CsdlAudit.Text.Pieces

/-!
# Conflicts

A conflict is a finding about several files. Its type has a code and a severity; its description and
details are words for a reader. One constructor for each type writes these words.
-/

namespace CsdlAudit

/-- How grave a finding is. -/
inductive Severity where
  /-- The files can still be used together. -/
  | warning
  /-- They cannot. -/
  | error
deriving DecidableEq, Repr

/-- The severity in a word. -/
def Severity.name : Severity → String
  | .warning => "warning"
  | .error => "error"

/-- **The types of conflict.** -/
inductive ConflictType where
  /-- Several files define one element. -/
  | duplicateElement
  /-- Several files carry the schema of one namespace. -/
  | duplicateNamespaceSchema
  /-- The definitions of one element do not agree. -/
  | incompatibleDefinition
  /-- The values of one annotation do not agree. -/
  | annotationConflict
  /-- Elements refer to each other in a circle. -/
  | circularReference
  /-- A reference names nothing. -/
  | missingReference
  /-- One short name stands for several namespaces. -/
  | aliasConflict
deriving DecidableEq, Repr

namespace ConflictType

/-- All types in their order. -/
def all : List ConflictType :=
  [.duplicateElement, .duplicateNamespaceSchema, .incompatibleDefinition, .annotationConflict,
   .circularReference, .missingReference, .aliasConflict]

/-- The code of a type. -/
def code : ConflictType → String
  | .duplicateElement => "C001"
  | .duplicateNamespaceSchema => "C002"
  | .incompatibleDefinition => "C003"
  | .annotationConflict => "C004"
  | .aliasConflict => "C005"
  | .circularReference => "W001"
  | .missingReference => "W002"

/-- The name of a type as it is shown. -/
def displayName : ConflictType → String
  | .duplicateElement => "DUPLICATE_ELEMENT"
  | .duplicateNamespaceSchema => "DUPLICATE_NAMESPACE_SCHEMA"
  | .incompatibleDefinition => "INCOMPATIBLE_DEFINITION"
  | .annotationConflict => "ANNOTATION_CONFLICT"
  | .circularReference => "CIRCULAR_REFERENCE"
  | .missingReference => "MISSING_REFERENCE"
  | .aliasConflict => "ALIAS_CONFLICT"

/-- The name of a type as it is stored. -/
def name : ConflictType → String
  | .duplicateElement => "DuplicateElement"
  | .duplicateNamespaceSchema => "DuplicateNamespaceSchema"
  | .incompatibleDefinition => "IncompatibleDefinition"
  | .annotationConflict => "AnnotationConflict"
  | .circularReference => "CircularReference"
  | .missingReference => "MissingReference"
  | .aliasConflict => "AliasConflict"

/-- The type with a stored name. -/
def ofName? (s : String) : Option ConflictType := all.find? (fun t => t.name == s)

/-- **How grave the type is**: what the graph of references shows is a warning, all else an
error. -/
def severity : ConflictType → Severity
  | .circularReference | .missingReference => .warning
  | _ => .error

end ConflictType

/-- **A finding about several files.** -/
structure Conflict where
  /-- Its type. -/
  type : ConflictType
  /-- The namespace that it is about. -/
  namespaceName : String
  /-- The element that it is about. -/
  elementName : Option String
  /-- The files that take part. -/
  files : List String
  /-- What was found. -/
  description : String
  /-- What it was found in. -/
  details : String
deriving DecidableEq, Repr

namespace Conflict

/-- How grave it is. -/
def severity (c : Conflict) : Severity := c.type.severity

/-- The conflict on one line. -/
def line (c : Conflict) : String :=
  "[" ++ c.type.code ++ "] " ++ c.type.displayName ++ ": " ++ c.description

/-- The conflict with its details on a line of their own. -/
def display (c : Conflict) : String :=
  c.line ++ (if c.details = "" then "" else "\n  - " ++ c.details)

/-- Several files define one element. -/
def duplicateElement (namespaceName element : String) (files : List String) : Conflict where
  type := .duplicateElement
  namespaceName := namespaceName
  elementName := some element
  files := files
  description := "Element '" ++ element ++ "' is defined multiple times in namespace '" ++
    namespaceName ++ "'"
  details := "Found in files: " ++ Text.join ", " files

/-- Several files carry the schema of one namespace. -/
def duplicateNamespaceSchema (namespaceName : String) (files : List String) : Conflict where
  type := .duplicateNamespaceSchema
  namespaceName := namespaceName
  elementName := none
  files := files
  description := "Namespace '" ++ namespaceName ++ "' schema is defined in multiple files"
  details := "Complete schema definitions found in: " ++ Text.join ", " files

/-- The definitions of one element do not agree. -/
def incompatibleDefinition (namespaceName element : String) (files : List String)
    (details : String) : Conflict where
  type := .incompatibleDefinition
  namespaceName := namespaceName
  elementName := some element
  files := files
  description := "Incompatible definitions for element '" ++ element ++ "' in namespace '" ++
    namespaceName ++ "'"
  details := details

/-- The values of one annotation do not agree; each value comes with its file. -/
def annotationConflict (namespaceName element term : String) (values : List (String × String)) :
    Conflict where
  type := .annotationConflict
  namespaceName := namespaceName
  elementName := some element
  files := Ascending.ofList (values.map Prod.snd)
  description := "Conflicting annotation values for term '" ++ term ++ "' on element '" ++
    element ++ "' in namespace '" ++ namespaceName ++ "'"
  details := "Values: " ++ Text.join ", " (values.map fun v => "'" ++ v.1 ++ "' in " ++ v.2)

/-- Elements refer to each other along a closed path. -/
def circularReference (namespaceName : String) (cycle files : List String) : Conflict where
  type := .circularReference
  namespaceName := namespaceName
  elementName := cycle.head?
  files := files
  description := "Circular reference detected: " ++ Text.join " -> " cycle
  details := "Cycle of " ++ toString (cycle.length - 1) ++ " element(s): " ++
    Text.join " -> " cycle

/-- A reference names nothing. -/
def missingReference (namespaceName source target : String) (file suggestion : Option String) :
    Conflict where
  type := .missingReference
  namespaceName := namespaceName
  elementName := some source
  files := file.toList
  description := "Missing reference to '" ++ target ++ "' from '" ++ source ++ "'"
  details := "'" ++ source ++ "' references '" ++ target ++
    "', which is not defined in any file" ++
    (suggestion.map fun s => " (did you mean '" ++ s ++ "'?)").getD ""

/-- One short name stands for several namespaces; each use is a namespace with a file. -/
def aliasConflict (aliasName : String) (uses : List (String × String)) : Conflict :=
  let namespaces := Ascending.ofList (uses.map Prod.fst)
  let shown := uses.map fun u => "namespace '" ++ u.1 ++ "' (in " ++ u.2 ++ ")"
  { type := .aliasConflict
    namespaceName := namespaces.head?.getD ""
    elementName := none
    files := Ascending.ofList (uses.map Prod.snd)
    description := "Cross-namespace alias conflict: Alias '" ++ aliasName ++ "' is used for " ++
      (match shown with
        | [a, b] => "both " ++ a ++ " and " ++ b
        | _ => Text.join ", " shown)
    details := "Alias '" ++ aliasName ++ "' maps to namespaces: " ++ Text.join ", " namespaces }

/-- The JSON form of a conflict. -/
def toJson (c : Conflict) : Json :=
  .object ([("conflict_type", .text c.type.name), ("namespace", .text c.namespaceName)] ++
    Json.optionalField "element_name" .text c.elementName ++
    [("files", .ofTexts c.files), ("description", .text c.description),
      ("details", .text c.details)])

/-- Reads a conflict. -/
def ofJson? (v : Json) : Option Conflict := do
  let fs ← v.fields?
  let type ← Json.required Json.text? "conflict_type" fs
  return ⟨← ConflictType.ofName? type,
    ← Json.required Json.text? "namespace" fs, ← Json.optional Json.text? "element_name" fs,
    ← Json.required (Json.list? Json.text?) "files" fs,
    ← Json.required Json.text? "description" fs, ← Json.required Json.text? "details" fs⟩

end Conflict

end CsdlAudit
