import CsdlAudit.Graph.Basic

/-!
# Drawing a graph

A graph is written in the DOT language: a header, a statement for each node in ascending order, and
one for each edge in ascending order of its ends. In a quoted id a backslash stands before each
backslash and each quote.
-/

namespace CsdlAudit

/-- One character of a quoted id. -/
def escapeDotChar (c : Char) : List Char :=
  if c = '\\' then ['\\', '\\'] else if c = '"' then ['\\', '"'] else [c]

/-- A quoted id without its quotes. -/
def escapeDot (s : String) : String := String.ofList (s.toList.flatMap escapeDotChar)

/-- An id between quotes. -/
def quoteDot (s : String) : String := "\"" ++ escapeDot s ++ "\""

/-- The colour in which nodes of a kind are filled. -/
def NodeKind.colour : NodeKind → String
  | .entityType => "#00BCD4"
  | .complexType => "#4CAF50"
  | .enumType => "#FF5722"
  | .typeDefinition => "#607D8B"
  | .action | .function => "#2196F3"
  | .term => "#795548"
  | .entityContainer | .entitySet | .singleton | .actionImport | .functionImport => "#9C27B0"
  | _ => "#E0E0E0"

/-- The statement of a node. -/
def Node.statement (n : Node) : String :=
  "  " ++ quoteDot n.id ++ " [label=" ++ quoteDot (shortName n.id) ++ ", fillcolor=\"" ++
    n.kind.colour ++ "\"" ++ (if n.kind.isPart then ", shape=ellipse" else "") ++ "];\n"

/-- The statement of an edge. -/
def Edge.statement (e : Edge) : String :=
  "  " ++ quoteDot e.source ++ " -> " ++ quoteDot e.target ++
    (match e.kind with
      | .contains => " [style=dotted]"
      | other => " [label=\"" ++ other.name ++ "\"]") ++ ";\n"

namespace Graph

/-- How drawings begin. -/
def drawingHeader : String :=
  "digraph DependencyGraph \x7b\n" ++
    "  rankdir=LR;\n" ++
    "  node [shape=box, style=\"filled,rounded\", fontname=\"Helvetica\", fontsize=10];\n" ++
    "  edge [fontname=\"Helvetica\", fontsize=8, fontcolor=\"#808080\"];\n" ++
    "\n"

/-- The nodes in ascending order of their ids. -/
def sortedNodes (g : Graph) : List Node := g.sortedIds.filterMap g.node?

/-- Whether an edge stands before another or with it. -/
def edgeLe (a b : Edge) : Bool :=
  decide (a.source < b.source) || (a.source == b.source && decide (a.target ≤ b.target))

/-- The edges in ascending order of their ends. -/
def sortedEdges (g : Graph) : List Edge := g.edges.mergeSort edgeLe

/-- **The drawing of a graph.** -/
def drawing (g : Graph) : String :=
  drawingHeader ++ String.join (g.sortedNodes.map Node.statement) ++ "\n" ++
    String.join (g.sortedEdges.map Edge.statement) ++ "\x7d\n"

end Graph

end CsdlAudit
