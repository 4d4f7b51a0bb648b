import CsdlAudit.Text.Letter
import CsdlAudit.Text.Pieces

/-!
# Type references

A declaration names a type by its qualified name, by its plain name within the same namespace, or
with a short name in place of the namespace; `Collection(...)` around the name says that there may
be many. `TypeReader.resolve` gives the element that is meant, and `TypeFault` lists why a text
names none.
-/

namespace CsdlAudit

/-- **Why a text is no type reference.** -/
inductive TypeFault where
  /-- It is blank. -/
  | blank
  /-- Nothing stands in the collection. -/
  | blankCollection
  /-- A collection stands in the collection. -/
  | nestedCollection
  /-- The collection is not closed. -/
  | openCollection
  /-- It is not a dotted name. -/
  | notQualified
deriving DecidableEq, Repr

/-- The fault in words. -/
def TypeFault.reason : TypeFault → String
  | .blank => "empty type reference"
  | .blankCollection => "empty Collection()"
  | .nestedCollection => "nested Collection()"
  | .openCollection => "unbalanced Collection("
  | .notQualified => "not a qualified name"

/-- A fault of a reference in words. -/
def malformedMessage (reference reason : String) : String :=
  "Malformed type reference '" ++ reference ++ "': " ++ reason

/-- The fault of a reference in words. -/
def TypeFault.message (f : TypeFault) (reference : String) : String :=
  malformedMessage reference f.reason

/-- **What a type reference means.** -/
inductive Referent where
  /-- A primitive type, which no schema declares. -/
  | primitive
  /-- The element with a qualified name. -/
  | element (id : String)
deriving DecidableEq, Repr

/-! ## Short names of namespaces -/

/-- Short names with their namespaces, in the order of their declarations. -/
abbrev Aliases := List (String × String)

/-- The namespace that a short name stands for: the last declaration wins. -/
def Aliases.get? (as : Aliases) (name : String) : Option String :=
  (as.reverse.find? (fun a => a.1 == name)).map Prod.snd

/-! ## Names -/

/-- Whether a name may start with the character. -/
def startsName (c : Char) : Bool := c = '_' || Text.isLetter c

/-- Whether a name may go on with the character. -/
def continuesName (c : Char) : Bool := startsName c || Text.isDecimalDigit c

/-- Whether the text is one name without dots. -/
def isIdentifier (s : String) : Bool :=
  match s.toList with
  | [] => false
  | c :: cs => startsName c && cs.all continuesName

/-- Whether the text is names joined by dots. -/
def isQualifiedName (s : String) : Bool := (Text.splitAll '.' s).all isIdentifier

/-! ## Reading references -/

/-- The wrapper of a collection up to its content. -/
def collectionStart : String := "Collection("

/-- What stands in a collection that takes the whole text, on one line. -/
def collectionContent? (s : String) : Option String :=
  match Text.dropStart? collectionStart.toList s.toList with
  | none => none
  | some tail =>
    if tail.getLast? = some ')' ∧ '\n' ∉ tail.dropLast then some (String.ofList tail.dropLast)
    else none

/-- **The reference without the wrapper of a collection.** -/
def elementType (reference : String) : Except TypeFault String :=
  let trimmed := Text.trim reference
  if trimmed = "" then .error .blank
  else
    match collectionContent? trimmed with
    | some content =>
      let inner := Text.trim content
      if inner = "" then .error .blankCollection
      else if Text.beginsWith collectionStart inner then .error .nestedCollection
      else .ok inner
    | none =>
      if Text.beginsWith collectionStart trimmed then .error .openCollection else .ok trimmed

/-- **How type references are read.** -/
structure TypeReader where
  /-- How the names of primitive types begin. -/
  primitiveStart : String
deriving DecidableEq, Repr

namespace TypeReader

/-- Whether a name is that of a primitive type. -/
def isPrimitive (r : TypeReader) (name : String) : Bool := Text.beginsWith r.primitiveStart name

/-- The qualified name that a dotted name stands for inside of a namespace. A short name stands for
a whole namespace, so exactly one name follows it. -/
def qualify (namespaceName : String) (aliases : Aliases) (name : String) : String :=
  match Text.splitFirst '.' name with
  | none => namespaceName ++ "." ++ name
  | some (head, rest) =>
    if Text.holds '.' rest then name
    else
      match aliases.get? head with
      | some target => target ++ "." ++ rest
      | none => name

/-- **What a type reference means** inside of a namespace. -/
def resolve (r : TypeReader) (reference namespaceName : String) (aliases : Aliases) :
    Except TypeFault Referent :=
  match elementType reference with
  | .error fault => .error fault
  | .ok name =>
    if r.isPrimitive name then .ok .primitive
    else if isQualifiedName name then .ok (.element (qualify namespaceName aliases name))
    else .error .notQualified

end TypeReader

end CsdlAudit
