import CsdlAudit.Graph.Basic
import CsdlAudit.Schema.Definition
import CsdlAudit.TypeReference

/-!
# What a block declares to the graph

A schema block declares nodes and references in a fixed order. An element gets a node of its own; so
does each part of it that refers to something, with its owner's id and the kind of part in front of
its name. Whether a reference leads anywhere is not asked here.
-/

namespace CsdlAudit

/-- **What a reference names.** -/
inductive ReferenceTarget where
  /-- A type, by a type reference. -/
  | type (reference : String)
  /-- All operations of a name. -/
  | operation (reference : String)
  /-- A node of the same element. -/
  | node (id : String)
deriving DecidableEq, Repr

/-- The text of a reference. -/
def ReferenceTarget.text : ReferenceTarget → String
  | .type reference | .operation reference => reference
  | .node id => id

/-- **A declared reference.** -/
structure Reference where
  /-- The node that refers. -/
  source : String
  /-- What it names. -/
  target : ReferenceTarget
  /-- What the edge will stand for. -/
  kind : EdgeKind
  /-- The namespace in which the reference is read. -/
  namespaceName : String
  /-- The file that declares it. -/
  sourceFile : String
deriving DecidableEq, Repr

/-- **One declaration.** -/
inductive Declared where
  /-- An element. -/
  | element (n : Node)
  /-- An operation, which others find by its name without parameters. -/
  | operation (plainId : String) (n : Node)
  /-- A part of the element `owner`. -/
  | part (owner : String) (n : Node)
  /-- A reference. -/
  | reference (r : Reference)
deriving DecidableEq, Repr

/-- **Where declarations stand.** -/
structure Scope where
  /-- The namespace of the block. -/
  namespaceName : String
  /-- The file of the block. -/
  file : String
deriving DecidableEq, Repr

namespace Scope

/-- The id of an element. -/
def idOf (s : Scope) (name : String) : String := s.namespaceName ++ "." ++ name

/-- The node of an element or a part. -/
def node (s : Scope) (id : String) (kind : NodeKind) (parentId : Option String) : Node :=
  ⟨id, kind, parentId, s.namespaceName, s.file⟩

/-- An element. -/
def element (s : Scope) (id : String) (kind : NodeKind) : Declared :=
  .element (s.node id kind none)

/-- A reference of the node `source`. -/
def reference (s : Scope) (source : String) (target : ReferenceTarget) (kind : EdgeKind) :
    Declared :=
  .reference ⟨source, target, kind, s.namespaceName, s.file⟩

/-- The id of a part. -/
def partId (owner segment : String) : String := owner ++ "." ++ segment

/-- A part with its reference. -/
def part (s : Scope) (owner segment : String) (kind : NodeKind) (target : ReferenceTarget)
    (edge : EdgeKind) : List Declared :=
  [.part owner (s.node (partId owner segment) kind (some owner)),
    s.reference (partId owner segment) target edge]

/-- A structured type with its parts. -/
def structured (s : Scope) (kind : NodeKind) (t : StructuredType) : List Declared :=
  let id := s.idOf t.name
  s.element id kind ::
    ((t.baseType.toList.flatMap fun base =>
        s.part id "baseType" .baseType (.type base) .baseType) ++
      (t.properties.flatMap fun p =>
        s.part id ("property." ++ p.name) .property (.type p.typeName) .property) ++
      (t.navigationProperties.flatMap fun n =>
        s.part id ("navigation." ++ n.name) .navigationProperty (.type n.typeName) .navigation) ++
      t.key.flatMap fun path =>
        s.part id ("key." ++ path) .key
          (.node (partId id ("property." ++ Text.beforeFirst '/' path))) .key)

/-- A type definition. -/
def typeDefinition (s : Scope) (t : TypeDefinition) : List Declared :=
  [s.element (s.idOf t.name) .typeDefinition,
    s.reference (s.idOf t.name) (.type t.underlyingType) .baseType]

/-- An operation with its parts. -/
def operation (s : Scope) (kind : NodeKind) (o : Operation) : List Declared :=
  let id := s.idOf o.signature
  .operation (s.idOf o.name) (s.node id kind none) ::
    ((o.parameters.flatMap fun p =>
        s.part id ("parameter." ++ p.name) .parameter (.type p.typeName) .parameter) ++
      o.returnType.toList.flatMap fun r =>
        s.part id "returnType" .returnType (.type r.typeName) .returnType)

/-- A term. -/
def term (s : Scope) (t : Term) : List Declared :=
  let id := s.idOf t.name
  s.element id .term :: s.reference id (.type t.typeName) .termType ::
    t.baseTerm.toList.map fun base => s.reference id (.type base) .baseType

/-- A container with what it offers. -/
def container (s : Scope) (c : EntityContainer) : List Declared :=
  let id := s.idOf c.name
  s.element id .entityContainer ::
    ((c.baseContainer.toList.map fun base => s.reference id (.type base) .baseType) ++
      (c.entitySets.flatMap fun e =>
        s.part id ("entitySet." ++ e.name) .entitySet (.type e.entityType) .entitySetType) ++
      (c.singletons.flatMap fun e =>
        s.part id ("singleton." ++ e.name) .singleton (.type e.typeName) .entitySetType) ++
      (c.actionImports.flatMap fun i =>
        s.part id ("actionImport." ++ i.name) .actionImport (.operation i.action) .importTarget) ++
      c.functionImports.flatMap fun i =>
        s.part id ("functionImport." ++ i.name) .functionImport (.operation i.function)
          .importTarget)

/-- **All that a block declares**, in order. -/
def block (s : Scope) (b : SchemaBlock) : List Declared :=
  b.entityTypes.flatMap (s.structured .entityType) ++
    b.complexTypes.flatMap (s.structured .complexType) ++
    (b.enumTypes.map fun t => s.element (s.idOf t.name) .enumType) ++
    b.typeDefinitions.flatMap s.typeDefinition ++
    b.actions.flatMap (s.operation .action) ++
    b.functions.flatMap (s.operation .function) ++
    b.terms.flatMap s.term ++
    b.entityContainer.toList.flatMap s.container

end Scope

/-- **What the blocks of files declare.** A block without a namespace declares nothing. -/
def declared (blocks : List (String × SchemaBlock)) : List Declared :=
  blocks.flatMap fun (file, b) =>
    match b.ownNamespace? with
    | some namespaceName => Scope.block ⟨namespaceName, file⟩ b
    | none => []

/-- The references among declarations, in order. -/
def references (ds : List Declared) : List Reference :=
  ds.filterMap fun
    | .reference r => some r
    | _ => none

/-- The short names of the namespaces of blocks. -/
def declaredAliases (blocks : List (String × SchemaBlock)) : Aliases :=
  blocks.filterMap fun (_, b) =>
    match b.aliasName, b.namespaceName with
    | some aliasName, some namespaceName => some (aliasName, namespaceName)
    | _, _ => none

end CsdlAudit
