import CsdlAudit.Document.Attributes
import CsdlAudit.Schema.Basic
import CsdlAudit.Text.Pieces

/-!
# Open elements

While a document is read, each element that is open holds what has been read of it so far. A tag
makes an open element (`Opened.ofTag`), and when the element closes, its parent takes it in
(`OpenElement.attach`). An element in a place where it does not belong is dropped.
-/

namespace CsdlAudit.Document

/-- The names of the constant and path expressions that an annotation may carry. -/
def expressionNames : List String :=
  ["String", "Bool", "Int", "Float", "Decimal", "Date", "DateTimeOffset", "TimeOfDay", "Duration",
   "Guid", "Binary", "EnumMember", "Path", "PropertyPath", "NavigationPropertyPath",
   "AnnotationPath", "ModelElementPath", "UrlRef"]

/-- **What has been read of an element that is open.** -/
inductive OpenElement where
  /-- A schema block. -/
  | block (b : SchemaBlock)
  /-- An entity type or a complex type. -/
  | structured (isEntity : Bool) (t : StructuredType)
  /-- A property. -/
  | property (p : Property)
  /-- A navigation property. -/
  | navigation (n : NavigationProperty)
  /-- An enumeration type. -/
  | enumeration (t : EnumType)
  /-- A type definition. -/
  | typeDefinition (t : TypeDefinition)
  /-- An action or a function. -/
  | operation (isAction : Bool) (o : Operation)
  /-- A term. -/
  | term (t : Term)
  /-- An entity container. -/
  | container (c : EntityContainer)
  /-- An entity set. -/
  | entitySet (s : EntitySet)
  /-- A singleton. -/
  | singleton (s : Singleton)
  /-- An action import. -/
  | actionImport (i : ActionImport)
  /-- A function import. -/
  | functionImport (i : FunctionImport)
  /-- Annotations applied from outside. -/
  | target (t : AnnotationTarget)
  /-- An annotation with the pieces of its value. -/
  | applied (a : Annotation) (pieces : List String)
  /-- An element that holds nothing. -/
  | other
deriving DecidableEq, Repr

/-- **What a tag opens**: an element that gathers content, or a detail that belongs to an element
around it. -/
inductive Opened where
  /-- An element that gathers content. -/
  | element (e : OpenElement)
  /-- A part of the key of the nearest structured type around. -/
  | keyPath (path : String)
  /-- A member of an enumeration type. -/
  | member (m : EnumMember)
  /-- A parameter of an operation. -/
  | parameter (p : Parameter)
  /-- What an operation returns. -/
  | returnType (r : ReturnType)
  /-- A binding of an entity set. -/
  | binding (b : NavigationBinding)
deriving DecidableEq, Repr

/-- **What a tag outside of annotations opens.** -/
def Opened.ofTag (name : String) (as : Attributes) : Except DocumentError Opened :=
  match name with
  | "Schema" => .ok (.element (.block (.bare (as.get? "Namespace") (as.get? "Alias"))))
  | "EntityType" | "ComplexType" => do
    return .element (.structured (name == "EntityType")
      ⟨← as.need name "Name", as.get? "BaseType", as.flag "Abstract", as.flag "OpenType",
        [], [], [], []⟩)
  | "PropertyRef" => do return .keyPath (← as.need name "Name")
  | "Property" => do
    return .element (.property ⟨← as.need name "Name", ← as.need name "Type",
      as.flagUnlessFalse "Nullable", as.get? "MaxLength", as.get? "DefaultValue", []⟩)
  | "NavigationProperty" => do
    return .element (.navigation ⟨← as.need name "Name", ← as.need name "Type",
      as.get? "Partner", as.flag "ContainsTarget", []⟩)
  | "EnumType" => do
    return .element (.enumeration ⟨← as.need name "Name", as.get? "UnderlyingType",
      as.flag "IsFlags", [], []⟩)
  | "Member" => do return .member ⟨← as.need name "Name", as.get? "Value"⟩
  | "TypeDefinition" => do
    return .element (.typeDefinition ⟨← as.need name "Name", ← as.need name "UnderlyingType", []⟩)
  | "Action" | "Function" => do
    return .element (.operation (name == "Action")
      ⟨← as.need name "Name", as.flag "IsBound", as.flag "IsComposable", [], none, []⟩)
  | "Parameter" => do
    return .parameter ⟨← as.need name "Name", ← as.need name "Type",
      as.flagUnlessFalse "Nullable"⟩
  | "ReturnType" => do
    return .returnType ⟨← as.need name "Type", as.flagUnlessFalse "Nullable"⟩
  | "Term" => do
    return .element (.term ⟨← as.need name "Name", ← as.need name "Type", as.get? "BaseTerm",
      ((as.get? "AppliesTo").map Text.words).getD [], []⟩)
  | "EntityContainer" => do
    return .element (.container ⟨← as.need name "Name", as.get? "Extends", [], [], [], [], []⟩)
  | "EntitySet" => do
    return .element (.entitySet ⟨← as.need name "Name", ← as.need name "EntityType", [], []⟩)
  | "NavigationPropertyBinding" => do
    return .binding ⟨← as.need name "Path", ← as.need name "Target"⟩
  | "Singleton" => do
    return .element (.singleton ⟨← as.need name "Name", ← as.need name "Type", []⟩)
  | "ActionImport" => do
    return .element (.actionImport ⟨← as.need name "Name", ← as.need name "Action",
      as.get? "EntitySet", []⟩)
  | "FunctionImport" => do
    return .element (.functionImport ⟨← as.need name "Name", ← as.need name "Function",
      as.get? "EntitySet", as.flag "IncludeInServiceDocument", []⟩)
  | "Annotations" => do return .element (.target ⟨← as.need name "Target", []⟩)
  | "Annotation" => do
    return .element (.applied ⟨← as.need name "Term", as.get? "Qualifier",
      expressionNames.findSome? as.get?⟩ [])
  | _ => .ok (.element .other)

/-! ## Closing -/

/-- The value that the content of an annotation writes. A lone constant or path element stands for
its text, as the attribute form does; anything else keeps its pieces. -/
def contentValue (pieces : List String) : String :=
  match pieces with
  | [head] => if head ∈ expressionNames then "" else head
  | [head, value] => if head ∈ expressionNames then value else Text.join " " [head, value]
  | _ => Text.join " " pieces

/-- The annotation with its value: the one its attributes give, else the one its content
writes. -/
def finished (a : Annotation) (pieces : List String) : Annotation :=
  if a.value = none ∧ pieces ≠ [] then { a with value := some (contentValue pieces) } else a

namespace OpenElement

/-- Applies an annotation to the element. -/
def annotate (a : Annotation) : OpenElement → OpenElement
  | .structured e t => .structured e { t with annotations := t.annotations ++ [a] }
  | .property p => .property { p with annotations := p.annotations ++ [a] }
  | .navigation n => .navigation { n with annotations := n.annotations ++ [a] }
  | .enumeration t => .enumeration { t with annotations := t.annotations ++ [a] }
  | .typeDefinition t => .typeDefinition { t with annotations := t.annotations ++ [a] }
  | .operation e o => .operation e { o with annotations := o.annotations ++ [a] }
  | .term t => .term { t with annotations := t.annotations ++ [a] }
  | .container c => .container { c with annotations := c.annotations ++ [a] }
  | .entitySet s => .entitySet { s with annotations := s.annotations ++ [a] }
  | .singleton s => .singleton { s with annotations := s.annotations ++ [a] }
  | .actionImport i => .actionImport { i with annotations := i.annotations ++ [a] }
  | .functionImport i => .functionImport { i with annotations := i.annotations ++ [a] }
  | .target t => .target { t with annotations := t.annotations ++ [a] }
  | e => e

/-- **The parent takes in a child that closes**, if the child belongs there. -/
def attach (child : OpenElement) : (parent : OpenElement) → OpenElement
  | .block b =>
    match child with
    | .structured true t => .block { b with entityTypes := b.entityTypes ++ [t] }
    | .structured false t => .block { b with complexTypes := b.complexTypes ++ [t] }
    | .enumeration t => .block { b with enumTypes := b.enumTypes ++ [t] }
    | .typeDefinition t => .block { b with typeDefinitions := b.typeDefinitions ++ [t] }
    | .operation true o => .block { b with actions := b.actions ++ [o] }
    | .operation false o => .block { b with functions := b.functions ++ [o] }
    | .term t => .block { b with terms := b.terms ++ [t] }
    | .container c => .block { b with entityContainer := some c }
    | .target t => .block { b with externalAnnotations := b.externalAnnotations ++ [t] }
    | _ => .block b
  | .structured e t =>
    match child with
    | .property p => .structured e { t with properties := t.properties ++ [p] }
    | .navigation n =>
      .structured e { t with navigationProperties := t.navigationProperties ++ [n] }
    | .applied a pieces => annotate (finished a pieces) (.structured e t)
    | _ => .structured e t
  | .container c =>
    match child with
    | .entitySet s => .container { c with entitySets := c.entitySets ++ [s] }
    | .singleton s => .container { c with singletons := c.singletons ++ [s] }
    | .actionImport i => .container { c with actionImports := c.actionImports ++ [i] }
    | .functionImport i => .container { c with functionImports := c.functionImports ++ [i] }
    | .applied a pieces => annotate (finished a pieces) (.container c)
    | _ => .container c
  | parent =>
    match child with
    | .applied a pieces => annotate (finished a pieces) parent
    | _ => parent

/-- Whether the element is a structured type. -/
def isStructured : OpenElement → Bool
  | .structured _ _ => true
  | _ => false

/-- The element with one more part of its key. -/
def addKey (path : String) : OpenElement → OpenElement
  | .structured e t => .structured e { t with key := t.key ++ [path] }
  | e => e

/-- **The element takes in a detail**, if the detail belongs there. -/
def addDetail (detail : Opened) : OpenElement → OpenElement
  | .enumeration t =>
    match detail with
    | .member m => .enumeration { t with members := t.members ++ [m] }
    | _ => .enumeration t
  | .operation e o =>
    match detail with
    | .parameter p => .operation e { o with parameters := o.parameters ++ [p] }
    | .returnType r => .operation e { o with returnType := some r }
    | _ => .operation e o
  | .entitySet s =>
    match detail with
    | .binding b => .entitySet { s with navigationBindings := s.navigationBindings ++ [b] }
    | _ => .entitySet s
  | e => e

end OpenElement

end CsdlAudit.Document
