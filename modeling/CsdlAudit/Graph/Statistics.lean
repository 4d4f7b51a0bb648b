import CsdlAudit.Double
import CsdlAudit.Graph.Cycles
import CsdlAudit.Natural

/-!
# Depths and statistics

The depth of a node is the greatest number of edges between different components on a walk from it.
Depths are found by following edges one step further at a time; a walk need not be longer than there
are nodes.
-/

namespace CsdlAudit

/-- What is known of a graph as a whole. -/
structure Statistics where
  /-- How many nodes there are. -/
  totalNodes : Nat
  /-- How many edges there are. -/
  totalEdges : Nat
  /-- How many nodes depend on nothing. -/
  leafNodes : Nat
  /-- On how many nodes nothing depends. -/
  rootNodes : Nat
  /-- The greatest depth. -/
  maxDepth : Nat
  /-- The sum of all depths. -/
  depthSum : Nat
  /-- How many nodes there are of each kind that occurs. -/
  nodesByKind : List (NodeKind × Nat)
  /-- How many cycles are reported. -/
  cycleCount : Nat
deriving DecidableEq, Repr

namespace Statistics

/-- The mean depth. -/
def meanDepth (s : Statistics) : Double :=
  if s.totalNodes = 0 then .ofQuotient false 0 1
  else .ofQuotient false s.depthSum s.totalNodes

/-- The mean depth in a number of decimal places. -/
def meanInPlaces (s : Statistics) (places : Nat) : Nat := s.meanDepth.inPlaces places

/-- The statistics on one line. -/
def display (s : Statistics) : String :=
  toString s.totalNodes ++ " nodes, " ++ toString s.totalEdges ++ " edges, " ++
    toString s.leafNodes ++ " leaves, " ++ toString s.rootNodes ++ " roots, max depth " ++
    toString s.maxDepth ++ ", avg depth " ++ placesText (s.meanInPlaces 2) 2 ++ ", " ++
    toString s.cycleCount ++ " cycle(s)"

/-- The JSON form of the statistics, with the mean depth as it is given. -/
def toJsonWith (mean : Json) (s : Statistics) : Json :=
  .object [("total_nodes", .integer s.totalNodes), ("total_edges", .integer s.totalEdges),
    ("leaf_nodes", .integer s.leafNodes), ("root_nodes", .integer s.rootNodes),
    ("max_depth", .integer s.maxDepth), ("average_depth", mean),
    ("nodes_by_kind", .object (s.nodesByKind.map fun k => (k.1.name, .integer k.2))),
    ("circular_dependencies", .integer s.cycleCount)]

/-- The JSON form of the statistics, with the mean depth in six decimal places. -/
def toJson (s : Statistics) : Json := s.toJsonWith (.decimal (s.meanInPlaces 6) 6)

/-- The JSON form of the statistics, with the mean depth in as many digits as it takes. -/
def toExactJson (s : Statistics) : Json := s.toJsonWith s.meanDepth.toJson

end Statistics

/-- The depths of ids. -/
abbrev Depths := List (String × Nat)

/-- The depth of an id, 0 for an unknown one. -/
def Depths.of (ds : Depths) (id : String) : Nat :=
  ((ds.find? (fun d => d.1 == id)).map Prod.snd).getD 0

namespace Graph

/-- The component of each node, named by its least member. -/
def componentTable (g : Graph) : List (String × String) :=
  g.ids.map fun id =>
    (id, match g.companions id with
      | [] => id
      | least :: _ => if id < least then id else least)

/-- The edges, each with whether it leads from one component into another. -/
def weightedEdges (g : Graph) : List (String × String × Nat) :=
  let table := g.componentTable
  let component (id : String) : Option (String × String) := table.find? (fun c => c.1 == id)
  g.edges.map fun e =>
    (e.source, e.target,
      if (component e.source).map Prod.snd = (component e.target).map Prod.snd then 0 else 1)

/-- Depths along walks that are one edge longer. -/
def deepen (edges : List (String × String × Nat)) (ds : Depths) : Depths :=
  ds.map fun d =>
    (d.1, ((edges.filter (fun e => e.1 == d.1)).map (fun e => ds.of e.2.1 + e.2.2)).foldl max d.2)

/-- Depths along walks that are up to `n` edges longer. -/
def deepenTimes (edges : List (String × String × Nat)) : Nat → Depths → Depths
  | 0, ds => ds
  | n + 1, ds =>
    let next := deepen edges ds
    if next = ds then ds else deepenTimes edges n next

/-- **The depths of all nodes.** -/
def depths (g : Graph) : Depths :=
  deepenTimes g.weightedEdges g.nodes.length (g.ids.map fun id => (id, 0))

/-- **The statistics of a graph.** -/
def statistics (g : Graph) : Statistics :=
  let ds := g.depths.map Prod.snd
  { totalNodes := g.nodes.length
    totalEdges := g.edges.length
    leafNodes := (g.ids.filter (fun id => (g.targets id).isEmpty)).length
    rootNodes := (g.ids.filter (fun id => (g.sources id).isEmpty)).length
    maxDepth := ds.foldl max 0
    depthSum := total ds
    nodesByKind :=
      (NodeKind.all.map fun k => (k, (g.nodes.filter (fun n => n.kind == k)).length)).filter
        (fun k => k.2 != 0)
    cycleCount := g.cycles.length }

end Graph

end CsdlAudit
