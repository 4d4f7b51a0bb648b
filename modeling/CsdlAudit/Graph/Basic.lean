import CsdlAudit.Ascending
import CsdlAudit.Index
import CsdlAudit.Text.Pieces

/-!
# Graphs of elements

A graph has a node for every element and for every part of an element that refers to others, and an
edge from each dependent to what it depends on. Nodes and edges keep the order in which they were
added. Adding a node whose id is taken, or an edge that is there already, changes nothing; an edge
from a node to itself is never added but noted as a self reference, once for a node.
-/

namespace CsdlAudit

/-- The kinds of node. -/
inductive NodeKind where
  /-- An entity type. -/
  | entityType
  /-- A complex type. -/
  | complexType
  /-- An enumeration type. -/
  | enumType
  /-- A type definition. -/
  | typeDefinition
  /-- An entity container. -/
  | entityContainer
  /-- An entity set. -/
  | entitySet
  /-- A singleton. -/
  | singleton
  /-- An action import. -/
  | actionImport
  /-- A function import. -/
  | functionImport
  /-- An action. -/
  | action
  /-- A function. -/
  | function
  /-- A term. -/
  | term
  /-- A property. -/
  | property
  /-- A navigation property. -/
  | navigationProperty
  /-- A parameter. -/
  | parameter
  /-- A return type. -/
  | returnType
  /-- The base of a type. -/
  | baseType
  /-- A part of a key. -/
  | key
deriving DecidableEq, Repr, Inhabited

namespace NodeKind

/-- All kinds in their order. -/
def all : List NodeKind :=
  [.entityType, .complexType, .enumType, .typeDefinition, .entityContainer, .entitySet,
   .singleton, .actionImport, .functionImport, .action, .function, .term, .property,
   .navigationProperty, .parameter, .returnType, .baseType, .key]

/-- The name of a kind. -/
def name : NodeKind → String
  | .entityType => "EntityType"
  | .complexType => "ComplexType"
  | .enumType => "EnumType"
  | .typeDefinition => "TypeDefinition"
  | .entityContainer => "EntityContainer"
  | .entitySet => "EntitySet"
  | .singleton => "Singleton"
  | .actionImport => "ActionImport"
  | .functionImport => "FunctionImport"
  | .action => "Action"
  | .function => "Function"
  | .term => "Term"
  | .property => "Property"
  | .navigationProperty => "NavigationProperty"
  | .parameter => "Parameter"
  | .returnType => "ReturnType"
  | .baseType => "BaseType"
  | .key => "Key"

/-- Whether nodes of the kind are parts of a type, an operation or a key, without a name of their
own to be found by. -/
def isPart : NodeKind → Bool
  | .property | .navigationProperty | .parameter | .returnType | .baseType | .key => true
  | _ => false

end NodeKind

/-- What an edge stands for. -/
inductive EdgeKind where
  /-- From an owner to its part. -/
  | contains
  /-- From a property to its type. -/
  | property
  /-- From a navigation property to its type. -/
  | navigation
  /-- From a parameter to its type. -/
  | parameter
  /-- From a return type to the type. -/
  | returnType
  /-- To a base. -/
  | baseType
  /-- From a part of a key to the property. -/
  | key
  /-- From an entity set or a singleton to its type. -/
  | entitySetType
  /-- From an import to the operation. -/
  | importTarget
  /-- From a term to its type. -/
  | termType
deriving DecidableEq, Repr, Inhabited

/-- The name of a kind of edge. -/
def EdgeKind.name : EdgeKind → String
  | .contains => "Contains"
  | .property => "Property"
  | .navigation => "Navigation"
  | .parameter => "Parameter"
  | .returnType => "ReturnType"
  | .baseType => "BaseType"
  | .key => "Key"
  | .entitySetType => "EntitySetType"
  | .importTarget => "ImportTarget"
  | .termType => "TermType"

/-- **A node**: an element, or a part of one. -/
structure Node where
  /-- The qualified name of an element; a part has its owner's id in front. -/
  id : String
  /-- What it is. -/
  kind : NodeKind
  /-- The owner of a part. -/
  parentId : Option String
  /-- The namespace of the block that declared it first. -/
  namespaceName : String
  /-- The file that declared it first. -/
  sourceFile : String
deriving DecidableEq, Repr, Inhabited

/-- **An edge** from a dependent to what it depends on. -/
structure Edge where
  /-- The dependent. -/
  source : String
  /-- What it depends on. -/
  target : String
  /-- What the edge stands for. -/
  kind : EdgeKind
deriving DecidableEq, Repr, Inhabited

/-- The last name in an id, the parameters of an operation left aside. -/
def shortName (id : String) : String := Text.afterLast '.' (Text.beforeFirst '(' id)

/-- **A graph of elements.** -/
structure Graph where
  /-- The nodes, in the order in which they were added. -/
  nodes : List Node
  /-- The edges, in the order in which they were added. -/
  edges : List Edge
  /-- The ids of elements under their short names. -/
  byName : Index String String
  /-- The nodes that refer to themselves, each with the first reference. -/
  selfReferences : List (String × EdgeKind)
deriving DecidableEq

namespace Graph

/-- The graph without nodes. -/
def empty : Graph := ⟨[], [], .empty, []⟩

/-- The ids of all nodes, in the order of the nodes. -/
def ids (g : Graph) : List String := g.nodes.map (·.id)

/-- The ids of all nodes in ascending order. -/
def sortedIds (g : Graph) : List String := Ascending.ofList g.ids

/-- The node with an id. -/
def node? (g : Graph) (id : String) : Option Node := g.nodes.find? (fun n => n.id == id)

/-- Whether there is a node with the id. -/
def hasNode (g : Graph) (id : String) : Bool := (g.node? id).isSome

/-- Whether there is an edge from one id to another. -/
def hasEdge (g : Graph) (source target : String) : Bool :=
  g.edges.any (fun e => e.source == source && e.target == target)

/-- **The graph with one more node**, unless the id is taken. -/
def addNode (g : Graph) (n : Node) : Graph :=
  if g.hasNode n.id then g
  else
    { g with
      nodes := g.nodes ++ [n]
      byName := if n.kind.isPart then g.byName else g.byName.add (shortName n.id) n.id }

/-- **The graph with one more edge** between two of its nodes, unless there is one. An edge from a
node to itself is noted and not added. -/
def addEdge (g : Graph) (e : Edge) : Graph :=
  if e.source = e.target then
    if g.selfReferences.any (fun r => r.1 == e.source) then g
    else { g with selfReferences := g.selfReferences ++ [(e.source, e.kind)] }
  else if !(g.hasNode e.source && g.hasNode e.target) || g.hasEdge e.source e.target then g
  else { g with edges := g.edges ++ [e] }

/-- The targets of the edges from an id, in the order of the edges. -/
def targets (g : Graph) (id : String) : List String :=
  (g.edges.filter (fun e => e.source == id)).map (·.target)

/-- The sources of the edges to an id, in the order of the edges. -/
def sources (g : Graph) (id : String) : List String :=
  (g.edges.filter (fun e => e.target == id)).map (·.source)

/-- **What an id depends on directly**, ascending. -/
def dependencies (g : Graph) (id : String) : List String := Ascending.ofList (g.targets id)

/-- **What depends on an id directly**, ascending. -/
def dependents (g : Graph) (id : String) : List String := Ascending.ofList (g.sources id)

end Graph

end CsdlAudit
