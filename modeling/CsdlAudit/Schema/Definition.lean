import CsdlAudit.Schema.Basic
import CsdlAudit.Text.Pieces

/-!
# Definitions

A `Definition` is one element that a schema block declares at its top level, or one that its entity
container offers. `SchemaBlock.definitions` lists them in a fixed order: types, operations, terms,
then the container with what it offers.
-/

namespace CsdlAudit

/-- The kinds of element that a definition declares. -/
inductive ElementKind where
  /-- An entity type. -/
  | entityType
  /-- A complex type. -/
  | complexType
  /-- An enumeration type. -/
  | enumType
  /-- A type definition. -/
  | typeDefinition
  /-- An entity container. -/
  | entityContainer
  /-- An entity set. -/
  | entitySet
  /-- A singleton. -/
  | singleton
  /-- An action import. -/
  | actionImport
  /-- A function import. -/
  | functionImport
  /-- An action. -/
  | action
  /-- A function. -/
  | function
  /-- A term. -/
  | term
deriving DecidableEq, Repr, Inhabited

/-- The name of a kind. -/
def ElementKind.name : ElementKind → String
  | .entityType => "EntityType"
  | .complexType => "ComplexType"
  | .enumType => "EnumType"
  | .typeDefinition => "TypeDefinition"
  | .entityContainer => "EntityContainer"
  | .entitySet => "EntitySet"
  | .singleton => "Singleton"
  | .actionImport => "ActionImport"
  | .functionImport => "FunctionImport"
  | .action => "Action"
  | .function => "Function"
  | .term => "Term"

/-- The name under which an operation is filed: overloads differ in the types of their
parameters. -/
def Operation.signature (o : Operation) : String :=
  o.name ++ "(" ++ Text.join "," (o.parameters.map (·.typeName)) ++ ")"

/-- **One defined element with its body.** -/
inductive Definition where
  /-- An entity type. -/
  | entityType (t : StructuredType)
  /-- A complex type. -/
  | complexType (t : StructuredType)
  /-- An enumeration type. -/
  | enumType (t : EnumType)
  /-- A type definition. -/
  | typeDefinition (t : TypeDefinition)
  /-- An entity container. -/
  | entityContainer (c : EntityContainer)
  /-- An entity set. -/
  | entitySet (s : EntitySet)
  /-- A singleton. -/
  | singleton (s : Singleton)
  /-- An action import. -/
  | actionImport (i : ActionImport)
  /-- A function import. -/
  | functionImport (i : FunctionImport)
  /-- An action. -/
  | action (o : Operation)
  /-- A function. -/
  | function (o : Operation)
  /-- A term. -/
  | term (t : Term)
deriving DecidableEq, Repr, Inhabited

namespace Definition

/-- The kind of the defined element. -/
def kind : Definition → ElementKind
  | .entityType _ => .entityType
  | .complexType _ => .complexType
  | .enumType _ => .enumType
  | .typeDefinition _ => .typeDefinition
  | .entityContainer _ => .entityContainer
  | .entitySet _ => .entitySet
  | .singleton _ => .singleton
  | .actionImport _ => .actionImport
  | .functionImport _ => .functionImport
  | .action _ => .action
  | .function _ => .function
  | .term _ => .term

/-- **The name under which the element is filed** in its namespace: the signature of an operation,
the plain name of anything else. -/
def elementName : Definition → String
  | .entityType t | .complexType t => t.name
  | .enumType t => t.name
  | .typeDefinition t => t.name
  | .entityContainer c => c.name
  | .entitySet s => s.name
  | .singleton s => s.name
  | .actionImport i => i.name
  | .functionImport i => i.name
  | .action o | .function o => o.signature
  | .term t => t.name

/-- The annotations of the element itself. -/
def annotations : Definition → List Annotation
  | .entityType t | .complexType t => t.annotations
  | .enumType t => t.annotations
  | .typeDefinition t => t.annotations
  | .entityContainer c => c.annotations
  | .entitySet s => s.annotations
  | .singleton s => s.annotations
  | .actionImport i => i.annotations
  | .functionImport i => i.annotations
  | .action o | .function o => o.annotations
  | .term t => t.annotations

/-- The annotated members of a structured type, properties first. -/
def structuredMembers (t : StructuredType) : List (String × List Annotation) :=
  (t.properties.map (fun p => (p.name, p.annotations)) ++
    t.navigationProperties.map (fun n => (n.name, n.annotations))).filter
      (fun m => !m.2.isEmpty)

/-- The annotated members of the element, by name. -/
def memberAnnotations : Definition → List (String × List Annotation)
  | .entityType t | .complexType t => structuredMembers t
  | _ => []

end Definition

/-- A container and what it offers. -/
def EntityContainer.definitions (c : EntityContainer) : List Definition :=
  .entityContainer c ::
    (c.entitySets.map .entitySet ++ c.singletons.map .singleton ++
      c.actionImports.map .actionImport ++ c.functionImports.map .functionImport)

/-- The definitions of a block that stand before those of its container. -/
def SchemaBlock.ownDefinitions (b : SchemaBlock) : List Definition :=
  b.entityTypes.map .entityType ++ b.complexTypes.map .complexType ++ b.enumTypes.map .enumType ++
    b.typeDefinitions.map .typeDefinition ++ b.actions.map .action ++
    b.functions.map .function ++ b.terms.map .term

/-- **All definitions of a block**, those of its container last. -/
def SchemaBlock.definitions (b : SchemaBlock) : List Definition :=
  b.ownDefinitions ++ (b.entityContainer.map EntityContainer.definitions).getD []

end CsdlAudit
