import CsdlAudit.Graph.Declared
import CsdlAudit.Graph.Similarity
import CsdlAudit.Text.Lowercase

/-!
# Building the graph of references

All nodes are made before any reference is followed, so a reference may name what a later block or
another file declares. A reference that cannot be read is a failure; one that names no node is
unresolved, possibly with a suggestion; every other becomes edges.
-/

namespace CsdlAudit

/-- A reference that names no node. -/
structure Unresolved where
  /-- The node that refers. -/
  source : String
  /-- The id that was looked for. -/
  target : String
  /-- The namespace in which the reference stands. -/
  namespaceName : String
  /-- The file that declares it. -/
  sourceFile : String
  /-- The node that may be meant. -/
  suggestion : Option String
deriving DecidableEq, Repr

/-- A reference that cannot be read. -/
structure Failure where
  /-- The node that refers. -/
  source : String
  /-- The text of the reference. -/
  reference : String
  /-- Why it cannot be read. -/
  reason : String
  /-- The file that declares it. -/
  sourceFile : String
deriving DecidableEq, Repr

/-- **A graph of elements with what became of their references.** -/
structure ReferenceGraph extends Graph where
  /-- The short names of namespaces. -/
  aliases : Aliases
  /-- The references that name no node. -/
  unresolved : List Unresolved
  /-- The references that cannot be read. -/
  failures : List Failure
deriving DecidableEq

/-- **How a graph is built.** -/
structure GraphOptions where
  /-- How the names of primitive types begin. -/
  primitiveStart : String
  /-- Whether cycles are reported. -/
  detectCycles : Bool
  /-- Whether unresolved references are reported. -/
  reportMissing : Bool
  /-- Whether a suggestion is made for an unresolved reference. -/
  suggestSimilar : Bool
deriving DecidableEq, Repr

/-- The options that hold unless others are given. -/
def GraphOptions.standard : GraphOptions := ⟨"Edm.", true, true, true⟩

/-! ## Nodes -/

/-- The nodes made so far, and the operations by their names without parameters. -/
structure NodeStage where
  /-- The graph so far. -/
  graph : Graph
  /-- The ids of the operations of each name. -/
  operations : Index String String
deriving DecidableEq

namespace NodeStage

/-- Nothing was made. -/
def initial : NodeStage := ⟨.empty, .empty⟩

/-- Makes the nodes of one declaration, and the edge from an owner to its part. -/
def add (s : NodeStage) : Declared → NodeStage
  | .element n => { s with graph := s.graph.addNode n }
  | .operation plainId n =>
    if s.graph.hasNode n.id then s
    else ⟨s.graph.addNode n, s.operations.add plainId n.id⟩
  | .part owner n => { s with graph := (s.graph.addNode n).addEdge ⟨owner, n.id, .contains⟩ }
  | .reference _ => s

/-- The nodes of all declarations. -/
def ofDeclared (ds : List Declared) : NodeStage := ds.foldl add initial

end NodeStage

/-! ## Edges -/

/-- The better of two suggestions, each an id with its score: the higher score, then the smaller
id. -/
def betterSuggestion (a b : String × Int) : String × Int :=
  if a.2 < b.2 ∨ (a.2 = b.2 ∧ b.1 < a.1) then b else a

/-- **The element that may be meant** by an id: of those that the id fits, the best. -/
def Graph.suggestion? (g : Graph) (target : String) : Option String :=
  let scored := (g.nodes.filter (fun n => !n.kind.isPart)).filterMap fun n =>
    (Similarity.score n.id target).map fun score => (n.id, score)
  match scored with
  | [] => none
  | first :: rest => some (rest.foldl betterSuggestion first).1

/-- **What a reference leads to**: ids, none for a primitive type. -/
def Reference.targets (r : Reference) (reader : TypeReader) (aliases : Aliases)
    (operations : Index String String) : Except TypeFault (List String) :=
  match r.target with
  | .node id => .ok [id]
  | .type reference =>
    match reader.resolve reference r.namespaceName aliases with
    | .error fault => .error fault
    | .ok .primitive => .ok []
    | .ok (.element id) => .ok [id]
  | .operation reference =>
    match reader.resolve reference r.namespaceName aliases with
    | .error fault => .error fault
    | .ok .primitive => .ok []
    | .ok (.element id) => .ok (if operations.hasKey id then operations.get id else [id])

namespace ReferenceGraph

/-- Follows a reference to one id. -/
def link (suggest : Bool) (r : Reference) (g : ReferenceGraph) (target : String) :
    ReferenceGraph :=
  if g.hasNode target then
    { g with toGraph := g.toGraph.addEdge ⟨r.source, target, r.kind⟩ }
  else
    { g with
      unresolved := g.unresolved ++
        [⟨r.source, target, r.namespaceName, r.sourceFile,
          if suggest then g.suggestion? target else none⟩] }

/-- Follows a reference. -/
def follow (options : GraphOptions) (operations : Index String String) (g : ReferenceGraph)
    (r : Reference) : ReferenceGraph :=
  match r.targets ⟨options.primitiveStart⟩ g.aliases operations with
  | .error fault =>
    { g with
      failures := g.failures ++
        [⟨r.source, r.target.text, fault.message r.target.text, r.sourceFile⟩] }
  | .ok targets => targets.foldl (link options.suggestSimilar r) g

/-- **The graph of the blocks of files.** -/
def build (options : GraphOptions) (blocks : List (String × SchemaBlock)) : ReferenceGraph :=
  let ds := declared blocks
  let stage := NodeStage.ofDeclared ds
  (references ds).foldl (follow options stage.operations)
    ⟨stage.graph, declaredAliases blocks, [], []⟩

/-- **The node that a query names**: by its id, with a short name in place of the namespace, or by
its short name, and then in any case. -/
def resolve (g : ReferenceGraph) (query : String) : Option String :=
  if g.hasNode query then some query
  else
    let expanded := (Text.splitFirst '.' query).bind fun (head, rest) =>
      (g.aliases.get? head).bind fun namespaceName =>
        if g.hasNode (namespaceName ++ "." ++ rest) then some (namespaceName ++ "." ++ rest)
        else none
    match expanded with
    | some id => some id
    | none =>
      match g.byName.get query with
      | id :: _ => some id
      | [] =>
        let wanted := Text.lowercase query
        (g.byName.toList.find? (fun e => Text.lowercase e.1 == wanted)).bind (·.2.head?)

end ReferenceGraph

end CsdlAudit
