import CsdlAudit.Proofs.Graph.Content
import CsdlAudit.Proofs.Graph.DotReader

/-!
# A drawing tells its graph

The statements that are read from a drawing are those of its nodes, in ascending order of their ids,
and then those of its edges, in ascending order of their ends, whatever characters the ids have
(`Graph.read_drawing`). So two graphs have the same drawing just when they have the same ids with
the same colours and shapes and the same edges with the same kinds (`Graph.DrawnAlike`).
-/

namespace CsdlAudit

/-! ## The statement of a node -/

/-- A statement stands behind blanks. -/
theorem lexes_indent : Dot.Lexes "  " [] := by decide +kernel

/-- A label is the first attribute. -/
theorem lexes_label : Dot.Lexes " [label=" [.opening, .word "label", .equals] := by decide +kernel

/-- The statement that is read for a node. -/
def Node.drawn (n : Node) : Dot.Statement :=
  .node n.id ([("label", shortName n.id), ("fillcolor", n.kind.colour)] ++
    if n.kind.isPart then [("shape", "ellipse")] else [])

/-- What the shape of a node is made of. -/
def NodeKind.shapeTokens (k : NodeKind) : List Dot.Token :=
  if k.isPart then [.comma, .word "shape", .equals, .word "ellipse"] else []

/-- What the statement of a node is made of. -/
def Node.tokens (n : Node) : List Dot.Token :=
  .quoted (escapeDot n.id) :: .opening ::
    .word "label" :: .equals :: .quoted (escapeDot (shortName n.id)) :: .comma ::
    .word "fillcolor" :: .equals :: .quoted (escapeDot n.kind.colour) ::
    (n.kind.shapeTokens ++ [Dot.Token.closing])

/-- A colour is quoted as it stands. -/
theorem NodeKind.escapeDot_colour (k : NodeKind) : escapeDot k.colour = k.colour := by
  cases k <;> decide +kernel

theorem NodeKind.lexes_shape (k : NodeKind) :
    Dot.Lexes ((if k.isPart then ", shape=ellipse" else "") ++ "];\n")
      (k.shapeTokens ++ [Dot.Token.closing, Dot.Token.semicolon]) := by
  unfold shapeTokens
  cases k.isPart <;> decide +kernel

theorem Node.lexes_statement (n : Node) :
    Dot.Lexes n.statement (n.tokens ++ [Dot.Token.semicolon]) := by
  have hfill : Dot.Lexes ", fillcolor=" [.comma, .word "fillcolor", .equals] := by decide +kernel
  have hstatement : n.statement = "  " ++ quoteDot n.id ++ " [label=" ++ quoteDot (shortName n.id) ++
      ", fillcolor=" ++ quoteDot n.kind.colour ++
        ((if n.kind.isPart then ", shape=ellipse" else "") ++ "];\n") := by
    have hopen : ", fillcolor=\"" = ", fillcolor=" ++ "\"" := rfl
    simp only [statement, quoteDot, n.kind.escapeDot_colour, hopen, String.append_assoc]
  have h := lexes_indent.append (Dot.lexes_quoteDot n.id) |>.append lexes_label
    |>.append (Dot.lexes_quoteDot (shortName n.id)) |>.append hfill
    |>.append (Dot.lexes_quoteDot n.kind.colour) |>.append n.kind.lexes_shape
  rw [hstatement]
  simpa only [tokens, List.append_assoc, List.cons_append, List.nil_append] using h

theorem Node.statement?_tokens (n : Node) : Dot.statement? n.tokens = some n.drawn := by
  unfold tokens drawn NodeKind.shapeTokens
  cases n.kind.isPart <;> simp [Dot.statement?, Dot.attributes?, Dot.Token.text?]

theorem Node.semicolon_notMem_tokens (n : Node) : .semicolon ∉ n.tokens := by
  unfold tokens NodeKind.shapeTokens
  cases n.kind.isPart <;> simp

/-! ## The statement of an edge -/

/-- The attributes of an edge of a kind. -/
def EdgeKind.attributes : EdgeKind → List (String × String)
  | .contains => [("style", "dotted")]
  | other => [("label", other.name)]

/-- The statement that is read for an edge. -/
def Edge.drawn (e : Edge) : Dot.Statement := .edge e.source e.target e.kind.attributes

/-- How the statement of an edge ends. -/
def EdgeKind.written : EdgeKind → String
  | .contains => " [style=dotted];\n"
  | other => " [label=" ++ quoteDot other.name ++ "];\n"

/-- What the list of attributes of an edge is made of. -/
def EdgeKind.tokens : EdgeKind → List Dot.Token
  | .contains => [.opening, .word "style", .equals, .word "dotted", .closing]
  | other => [.opening, .word "label", .equals, .quoted (escapeDot other.name), .closing]

/-- What the statement of an edge is made of. -/
def Edge.tokens (e : Edge) : List Dot.Token :=
  .quoted (escapeDot e.source) :: .arrow :: .quoted (escapeDot e.target) :: e.kind.tokens

/-- The name of a kind is quoted as it stands. -/
theorem EdgeKind.escapeDot_name (k : EdgeKind) : escapeDot k.name = k.name := by
  cases k <;> decide +kernel

theorem Edge.statement_eq_written (e : Edge) : e.statement =
    "  " ++ quoteDot e.source ++ " -> " ++ quoteDot e.target ++ e.kind.written := by
  obtain ⟨source, target, kind⟩ := e
  have hopen : " [label=\"" = " [label=" ++ "\"" := rfl
  have hclose : "\"]" = "\"" ++ "]" := rfl
  have hend : "]" ++ ";\n" = "];\n" := rfl
  cases kind with
  | contains =>
    simp only [statement, EdgeKind.written, String.append_assoc]
    rfl
  | _ =>
    simp only [statement, EdgeKind.written, quoteDot, EdgeKind.escapeDot_name, hopen, hclose, hend,
      String.append_assoc]

theorem EdgeKind.lexes_written (k : EdgeKind) :
    Dot.Lexes k.written (k.tokens ++ [Dot.Token.semicolon]) := by
  have hend : Dot.Lexes "];\n" [.closing, .semicolon] := by decide +kernel
  cases k with
  | contains => decide +kernel
  | _ => exact lexes_label.append (Dot.lexes_quoteDot _) |>.append hend

theorem EdgeKind.attributes?_tokens (k : EdgeKind) :
    ∃ rest, k.tokens = .opening :: rest ∧ Dot.attributes? rest = some k.attributes := by
  cases k <;> exact ⟨_, rfl, by simp [Dot.attributes?, Dot.Token.text?, attributes]⟩

theorem Edge.lexes_statement (e : Edge) :
    Dot.Lexes e.statement (e.tokens ++ [Dot.Token.semicolon]) := by
  have harrow : Dot.Lexes " -> " [.arrow] := by decide +kernel
  have h := lexes_indent.append (Dot.lexes_quoteDot e.source) |>.append harrow
    |>.append (Dot.lexes_quoteDot e.target) |>.append e.kind.lexes_written
  rw [statement_eq_written]
  simpa only [tokens, List.append_assoc, List.cons_append, List.nil_append] using h

theorem Edge.statement?_tokens (e : Edge) : Dot.statement? e.tokens = some e.drawn := by
  obtain ⟨rest, htokens, hrest⟩ := e.kind.attributes?_tokens
  rw [tokens, htokens, drawn]
  simp [Dot.statement?, hrest]

theorem Edge.semicolon_notMem_tokens (e : Edge) : .semicolon ∉ e.tokens := by
  have hkind : .semicolon ∉ e.kind.tokens := by cases e.kind <;> simp [EdgeKind.tokens]
  simp [tokens, hkind]

/-! ## What statements tell -/

theorem Node.drawn_eq_iff {n m : Node} : n.drawn = m.drawn ↔
    n.id = m.id ∧ n.kind.colour = m.kind.colour ∧ n.kind.isPart = m.kind.isPart := by
  unfold drawn
  cases n.kind.isPart <;> cases m.kind.isPart <;> simp +contextual

theorem EdgeKind.attributes_injective : Function.Injective attributes := by
  intro k l h
  cases k <;> cases l <;> first | rfl | exact absurd h (by decide)

theorem Edge.drawn_injective : Function.Injective drawn := by
  rintro ⟨source, target, kind⟩ ⟨source', target', kind'⟩ h
  obtain ⟨hsource, htarget, hkind⟩ := Dot.Statement.edge.inj h
  rw [Edge.mk.injEq]
  exact ⟨hsource, htarget, EdgeKind.attributes_injective hkind⟩

/-- Whether a statement is that of a node. -/
def Dot.Statement.isNode : Dot.Statement → Bool
  | .node _ _ => true
  | .edge _ _ _ => false

/-- **The statements of nodes and those of edges are told from each other**, and edges by their
statements. -/
theorem drawn_append_inj {ns ns' : List Node} {es es' : List Edge}
    (h : ns.map Node.drawn ++ es.map Edge.drawn = ns'.map Node.drawn ++ es'.map Edge.drawn) :
    ns.map Node.drawn = ns'.map Node.drawn ∧ es = es' := by
  have hnode : ∀ (l : List Node) (p : Bool),
      (l.map Node.drawn).filter (·.isNode == p) = if p then l.map Node.drawn else [] := by
    intro l p
    cases p <;> simp [List.filter_map, Function.comp_def, Node.drawn, Dot.Statement.isNode]
  have hedge : ∀ (l : List Edge) (p : Bool),
      (l.map Edge.drawn).filter (·.isNode == p) = if p then [] else l.map Edge.drawn := by
    intro l p
    cases p <;> simp [List.filter_map, Function.comp_def, Edge.drawn, Dot.Statement.isNode]
  have hfilter : ∀ p : Bool, _ := fun p => congrArg (List.filter (·.isNode == p)) h
  simp only [List.filter_append, hnode, hedge] at hfilter
  have hnodes := hfilter true
  have hedges := hfilter false
  simp only [if_true, List.append_nil] at hnodes
  simp only [Bool.false_eq_true, if_false, List.nil_append] at hedges
  exact ⟨hnodes, List.map_injective_iff.mpr Edge.drawn_injective hedges⟩

/-! ## The drawing of a graph -/

namespace Graph

section Reading

variable (g : Graph)

/-- What stands behind the header of a drawing. -/
def drawingBody : String :=
  String.join (g.sortedNodes.map Node.statement) ++ "\n" ++
    String.join (g.sortedEdges.map Edge.statement) ++ "\x7d\n"

/-- What the statements of a drawing are made of. -/
def drawingTokens : List (List Dot.Token) :=
  g.sortedNodes.map Node.tokens ++ g.sortedEdges.map Edge.tokens

theorem drawing_eq_append : g.drawing = drawingHeader ++ g.drawingBody := by
  simp only [drawing, drawingBody, String.append_assoc]

theorem semicolon_notMem_drawingTokens : ∀ p ∈ g.drawingTokens, Dot.Token.semicolon ∉ p := by
  simp only [drawingTokens, List.forall_mem_append, List.forall_mem_map]
  exact ⟨fun n _ => n.semicolon_notMem_tokens, fun e _ => e.semicolon_notMem_tokens⟩

theorem mapM_drawingTokens : g.drawingTokens.mapM Dot.statement? =
    some (g.sortedNodes.map Node.drawn ++ g.sortedEdges.map Edge.drawn) := by
  rw [drawingTokens, List.mapM_append, Dot.mapM_statement? Node.statement?_tokens,
    Dot.mapM_statement? Edge.statement?_tokens]
  rfl

/-- **Behind the header there are the statements**, each with a semicolon, and the end. -/
theorem lexes_drawingBody : Dot.Lexes g.drawingBody
    (g.drawingTokens.flatMap (· ++ [Dot.Token.semicolon]) ++ [Dot.Token.ending]) := by
  have hline : Dot.Lexes "\n" [] := by decide +kernel
  have hend : Dot.Lexes "\x7d\n" [.ending] := by decide +kernel
  have h := Dot.Lexes.join Node.lexes_statement g.sortedNodes |>.append hline
    |>.append (Dot.Lexes.join Edge.lexes_statement g.sortedEdges) |>.append hend
  rw [drawingTokens, List.flatMap_append, List.flatMap_map, List.flatMap_map]
  simpa only [drawingBody, List.append_nil] using h

/-- **What is read from a drawing**: the statements of the nodes, then those of the edges. -/
theorem read_drawing :
    Dot.read g.drawing = some (g.sortedNodes.map Node.drawn ++ g.sortedEdges.map Edge.drawn) := by
  have hbody : Text.afterStart? drawingHeader g.drawing = some g.drawingBody :=
    Text.afterStart?_eq_some_iff.mpr g.drawing_eq_append
  rw [Dot.read, hbody, Option.bind_some, g.lexes_drawingBody]
  show Dot.statements? _ = _
  rw [Dot.statements?_eq_mapM g.semicolon_notMem_drawingTokens, mapM_drawingTokens]

/-- An id with a quote, an arrow and a backslash in it is read as it is. -/
example : Dot.read (empty.addNode ⟨"N.A\" -> \"B\\", .term, none, "N", "a.xml"⟩).drawing =
    some [.node "N.A\" -> \"B\\" [("label", "A\" -> \"B\\"), ("fillcolor", "#795548")]] := by
  rw [read_drawing]
  decide +kernel

end Reading

section Order

variable {g : Graph}

theorem WellFormed.mem_sortedNodes (hg : g.WellFormed) {n : Node} :
    n ∈ g.sortedNodes ↔ n ∈ g.nodes := by
  rw [sortedNodes, List.mem_filterMap]
  constructor
  · rintro ⟨id, -, hn⟩
    exact (hg.node?_eq_some_iff.mp hn).1
  · intro hn
    exact ⟨n.id, Ascending.mem_ofList.mpr (List.mem_map_of_mem hn),
      hg.node?_eq_some_iff.mpr ⟨hn, rfl⟩⟩

/-- The nodes are drawn in the order of their ids. -/
theorem WellFormed.map_id_sortedNodes (hg : g.WellFormed) :
    g.sortedNodes.map (·.id) = g.sortedIds := by
  have hid : ∀ id ∈ g.sortedIds, (g.node? id).map (·.id) = some id := by
    intro id hid
    obtain ⟨n, hn, rfl⟩ := List.mem_map.mp (Ascending.mem_ofList.mp hid)
    rw [hg.node?_eq_some_iff.mpr ⟨hn, rfl⟩, Option.map_some]
  rw [sortedNodes, List.map_filterMap, List.filterMap_congr hid, List.filterMap_some]

theorem WellFormed.sortedNodes_perm (hg : g.WellFormed) : g.sortedNodes.Perm g.nodes := by
  have hnodup : g.sortedNodes.Nodup := by
    refine .of_map (·.id) ?_
    rw [hg.map_id_sortedNodes]
    exact Ascending.nodup_ofList g.ids
  exact (List.perm_ext_iff_of_nodup hnodup (.of_map _ hg.nodup_ids)).mpr fun _ =>
    hg.mem_sortedNodes

/-- The edges are drawn in the order of their ends, and no two of them have the same. -/
theorem WellFormed.pairwise_sortedEdges (hg : g.WellFormed) : g.sortedEdges.Pairwise fun a b =>
    a.source < b.source ∨ a.source = b.source ∧ a.target < b.target := by
  have hsorted : g.sortedEdges.Pairwise fun a b => edgeLe a b = true :=
    List.pairwise_mergeSort edgeLe_trans edgeLe_total g.edges
  have hends : g.sortedEdges.Pairwise fun a b => (a.source, a.target) ≠ (b.source, b.target) := by
    have hperm : (g.sortedEdges.map fun e => (e.source, e.target)).Perm g.arrows :=
      (List.mergeSort_perm ..).map _
    exact List.pairwise_map.mp (hperm.nodup_iff.mpr hg.nodup_arrows)
  refine (hsorted.and hends).imp fun {a b} ⟨hle, hne⟩ => ?_
  obtain hlt | ⟨hsource, htarget⟩ := edgeLe_iff.mp hle
  · exact .inl hlt
  · exact .inr ⟨hsource, lt_of_le_of_ne htarget fun he => hne (Prod.ext hsource he)⟩

end Order

/-- **Graphs that are drawn alike**: what a drawing tells is the same of both. -/
structure DrawnAlike (g h : Graph) : Prop where
  /-- They have the same ids. -/
  ids : ∀ id, id ∈ g.ids ↔ id ∈ h.ids
  /-- They have the same edges, of the same kinds. -/
  edges : ∀ e, e ∈ g.edges ↔ e ∈ h.edges
  /-- A node of one and that of its id in the other are both parts of elements, or none is. -/
  isPart : ∀ n ∈ g.nodes, ∀ m ∈ h.nodes, n.id = m.id → n.kind.isPart = m.kind.isPart
  /-- A node of one and that of its id in the other have kinds of the same colour. -/
  colour : ∀ n ∈ g.nodes, ∀ m ∈ h.nodes, n.id = m.id → n.kind.colour = m.kind.colour

section Alike

variable {g h : Graph}

/-- Where the same statements are read, a node of one graph has one of the other that is drawn in
the same way. -/
theorem WellFormed.exists_drawn_eq (hg : g.WellFormed) (hh : h.WellFormed)
    (hnodes : g.sortedNodes.map Node.drawn = h.sortedNodes.map Node.drawn) {n : Node}
    (hn : n ∈ g.nodes) : ∃ m ∈ h.nodes, n.drawn = m.drawn := by
  have hdrawn : n.drawn ∈ h.sortedNodes.map Node.drawn :=
    hnodes ▸ List.mem_map_of_mem (hg.mem_sortedNodes.mpr hn)
  obtain ⟨m, hm, heq⟩ := List.mem_map.mp hdrawn
  exact ⟨m, hh.mem_sortedNodes.mp hm, heq.symm⟩

/-- **What is drawn alike has the same ids and edges**, and nodes that look the same. -/
theorem WellFormed.drawnAlike_of_drawing_eq (hg : g.WellFormed) (hh : h.WellFormed)
    (heq : g.drawing = h.drawing) : g.DrawnAlike h := by
  have hread := g.read_drawing
  rw [heq, read_drawing] at hread
  obtain ⟨hnodes, hedges⟩ := drawn_append_inj (Option.some.inj hread).symm
  have hsame : ∀ n ∈ g.nodes, ∀ m ∈ h.nodes, n.id = m.id → n.drawn = m.drawn := by
    intro n hn m hm hid
    obtain ⟨m', hm', hdrawn⟩ := hg.exists_drawn_eq hh hnodes hn
    -- an id stands for one node only
    have hids : m'.id = m.id := (Node.drawn_eq_iff.mp hdrawn).1.symm.trans hid
    rwa [List.inj_on_of_nodup_map hh.nodup_ids hm' hm hids] at hdrawn
  have hids : ∀ {f k : Graph}, f.WellFormed → k.WellFormed →
      f.sortedNodes.map Node.drawn = k.sortedNodes.map Node.drawn → f.ids ⊆ k.ids := by
    intro f k hf hk hdrawn id hid
    obtain ⟨n, hn, rfl⟩ := List.mem_map.mp hid
    obtain ⟨m, hm, hnm⟩ := hf.exists_drawn_eq hk hdrawn hn
    exact (Node.drawn_eq_iff.mp hnm).1 ▸ List.mem_map_of_mem hm
  exact {
    ids := fun id => ⟨fun hid => hids hg hh hnodes hid, fun hid => hids hh hg hnodes.symm hid⟩
    edges := fun e => by
      rw [← (List.mergeSort_perm g.edges edgeLe).mem_iff,
        ← (List.mergeSort_perm h.edges edgeLe).mem_iff]
      exact Eq.to_iff (congrArg (e ∈ ·) hedges)
    isPart := fun n hn m hm hid => (Node.drawn_eq_iff.mp (hsame n hn m hm hid)).2.2
    colour := fun n hn m hm hid => (Node.drawn_eq_iff.mp (hsame n hn m hm hid)).2.1 }

/-- A drawing has nothing else in it. -/
theorem WellFormed.drawing_eq_of_drawnAlike (hg : g.WellFormed) (hh : h.WellFormed)
    (halike : g.DrawnAlike h) : g.drawing = h.drawing := by
  refine drawing_eq_of_statements (Ascending.ofList_eq_of_mem_iff halike.ids) (fun id => ?_)
    (hg.sortedEdges_eq_of_mem_iff hh halike.edges)
  by_cases hid : id ∈ g.ids
  · obtain ⟨n, hn, rfl⟩ := List.mem_map.mp hid
    obtain ⟨m, hm, hnm⟩ := List.mem_map.mp ((halike.ids n.id).mp hid)
    rw [hg.node?_eq_some_iff.mpr ⟨hn, rfl⟩, hh.node?_eq_some_iff.mpr ⟨hm, hnm⟩]
    simp only [Option.map_some, Node.statement, hnm, halike.isPart n hn m hm hnm.symm,
      halike.colour n hn m hm hnm.symm]
  · have hnone : ∀ {f : Graph}, id ∉ f.ids → f.node? id = none := fun hf => by
      simpa [← hasNode_iff, hasNode] using hf
    rw [hnone hid, hnone fun hid' => hid ((halike.ids id).mpr hid')]

end Alike

/-- **A drawing tells its graph.** -/
structure DrawnFaithfully (g : Graph) : Prop where
  /-- One statement is read for each node, then one for each edge, and nothing else. -/
  read : Dot.read g.drawing = some (g.sortedNodes.map Node.drawn ++ g.sortedEdges.map Edge.drawn)
  /-- All nodes are drawn. -/
  nodes : g.sortedNodes.Perm g.nodes
  /-- Their ids ascend. -/
  ids_ascend : (g.sortedNodes.map (·.id)).Pairwise (· < ·)
  /-- All edges are drawn. -/
  edges : g.sortedEdges.Perm g.edges
  /-- Their ends ascend. -/
  ends_ascend : g.sortedEdges.Pairwise fun a b =>
    a.source < b.source ∨ a.source = b.source ∧ a.target < b.target
  /-- The text between quotes is decoded by the inverse of what escapes an id. -/
  unescape_iff : ∀ s t : String, Dot.unescape t = some s ↔ t = escapeDot s
  /-- Two graphs have the same drawing just when they have the same ids and edges, and nodes that
  look the same. -/
  drawing_eq_iff : ∀ others, g.drawing = (assemble others).drawing ↔ g.DrawnAlike (assemble others)

/-- **Every graph is drawn faithfully**, whatever characters its ids have. -/
theorem drawnFaithfully_assemble (additions : List Addition) :
    (assemble additions).DrawnFaithfully := by
  have hg := wellFormed_assemble additions
  exact {
    read := read_drawing _
    nodes := hg.sortedNodes_perm
    ids_ascend := hg.map_id_sortedNodes ▸ Ascending.pairwise_lt_ofList _
    edges := List.mergeSort_perm ..
    ends_ascend := hg.pairwise_sortedEdges
    unescape_iff := fun _ _ => Dot.unescape_eq_some_iff
    drawing_eq_iff := fun others =>
      ⟨hg.drawnAlike_of_drawing_eq (wellFormed_assemble others),
        hg.drawing_eq_of_drawnAlike (wellFormed_assemble others)⟩ }

end Graph

end CsdlAudit
