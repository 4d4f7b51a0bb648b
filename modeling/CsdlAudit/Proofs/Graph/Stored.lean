import CsdlAudit.Proofs.Graph.Ownership

/-!
# Graphs as they are kept

A graph is kept in several places at once: the ids stand on numbered vertices with edges between the
numbers, one table finds the node of an id and another its vertex, and a third finds the elements of
a short name. `StoredGraph` has these places, and its two operations write to each of them by
themselves.

`StoredGraph.Stores` says that a stored graph is the one that `Graph` describes, and both operations
keep it so. From that follow the invariants that the places keep among each other
(`StoredGraph.Consistent`): whichever additions were made, in whatever order, also those that are
refused.

A graph that is built from schema blocks is stored in the same way, and its owners and members are
in order besides (`Graph.Owned`). `StoredGraph.consistent_stored` puts both together.
-/

namespace CsdlAudit

/-- An edge between two vertices. -/
structure Link where
  /-- The vertex of the dependent. -/
  source : Nat
  /-- The vertex of what it depends on. -/
  target : Nat
  /-- What the edge stands for. -/
  kind : EdgeKind
deriving DecidableEq, Repr

/-- **A graph with its tables.** -/
structure StoredGraph where
  /-- The ids that the vertices carry. A vertex is a place in this list. -/
  weights : List String
  /-- The edges, in the order in which they were added. -/
  links : List Link
  /-- The nodes by their ids. -/
  nodes : Std.HashMap String Node
  /-- The vertices by the ids that they carry. -/
  vertices : Std.HashMap String Nat
  /-- The ids of elements by their short names. -/
  byName : Std.HashMap String (List String)
  /-- The nodes that refer to themselves, each with the first reference. -/
  selfReferences : List (String × EdgeKind)

namespace StoredGraph

/-- The stored graph without nodes. -/
def empty : StoredGraph := ⟨[], [], ∅, ∅, ∅, []⟩

/-- Files an id under a short name. -/
def fileName (byName : Std.HashMap String (List String)) (name id : String) :
    Std.HashMap String (List String) :=
  byName.insert name (byName.getD name [] ++ [id])

/-- **Adds a node**, unless its id is taken, and says whether it did. -/
def addNode (s : StoredGraph) (n : Node) : StoredGraph × Bool :=
  if s.nodes.contains n.id then (s, false)
  else
    ({ s with
        weights := s.weights ++ [n.id]
        vertices := s.vertices.insert n.id s.weights.length
        byName := if n.kind.isPart then s.byName else fileName s.byName (shortName n.id) n.id
        nodes := s.nodes.insert n.id n }, true)

/-- **Adds an edge** between two nodes unless there is one, and says whether it did. An edge from a
node to itself is noted and not added. -/
def addEdge (s : StoredGraph) (e : Edge) : StoredGraph × Bool :=
  if e.source = e.target then
    if s.selfReferences.any (fun r => r.1 == e.source) then (s, false)
    else ({ s with selfReferences := s.selfReferences ++ [(e.source, e.kind)] }, false)
  else
    match s.vertices[e.source]?, s.vertices[e.target]? with
    | some a, some b =>
      if s.links.any (fun l => l.source == a && l.target == b) then (s, false)
      else ({ s with links := s.links ++ [⟨a, b, e.kind⟩] }, true)
    | _, _ => (s, false)

/-- The stored graph after one addition. -/
def extend (s : StoredGraph) : Addition → StoredGraph
  | .node n => (s.addNode n).1
  | .edge e => (s.addEdge e).1

/-- **The stored graph of a sequence of additions.** -/
def assemble (additions : List Addition) : StoredGraph := additions.foldl extend empty

/-! ## What is stored -/

/-- A link joins the vertices of the ends of an edge. -/
def Joins (weights : List String) (l : Link) (e : Edge) : Prop :=
  weights[l.source]? = some e.source ∧ weights[l.target]? = some e.target ∧ l.kind = e.kind

/-- **What is stored is the graph.** -/
structure Stores (s : StoredGraph) (g : Graph) : Prop where
  /-- A node is found by its id. -/
  nodes : ∀ id : String, s.nodes[id]? = g.node? id
  /-- The vertices carry the ids of the nodes, in their order. -/
  weights : s.weights = g.ids
  /-- A vertex is found by the id that it carries. -/
  vertices : ∀ (id : String) (v : Nat), s.vertices[id]? = some v ↔ s.weights[v]? = some id
  /-- The links are the edges, in their order. -/
  links : List.Forall₂ (Joins s.weights) s.links g.edges
  /-- The elements of a short name are found by it. -/
  byName : ∀ name, s.byName.getD name [] = g.byName.get name
  /-- The self references are those of the graph. -/
  selfReferences : s.selfReferences = g.selfReferences

theorem stores_empty : empty.Stores .empty where
  nodes := fun id => by simp [empty, Graph.empty, Graph.node?]
  weights := rfl
  vertices := fun id v => by simp [empty]
  links := .nil
  byName := fun name => by simp [empty, Graph.empty, Index.empty, Index.get, Index.lookup]
  selfReferences := rfl

/-- The place of an item in a list with one more item. -/
theorem getElem?_concat_eq_some_iff {α : Type} {xs : List α} {x y : α} {i : Nat} :
    (xs ++ [x])[i]? = some y ↔ xs[i]? = some y ∨ i = xs.length ∧ x = y := by
  rcases Nat.lt_trichotomy i xs.length with hi | rfl | hi
  · rw [List.getElem?_append_left hi]
    simp [Nat.ne_of_lt hi]
  · simp
  · have hnone : (xs ++ [x])[i]? = none := List.getElem?_eq_none (by simp; omega)
    rw [hnone, List.getElem?_eq_none (Nat.le_of_lt hi)]
    simp [Nat.ne_of_gt hi]

theorem Joins.append {weights : List String} {l : Link} {e : Edge} (h : Joins weights l e)
    (more : List String) : Joins (weights ++ more) l e := by
  have keep : ∀ {v : Nat} {id : String}, weights[v]? = some id → (weights ++ more)[v]? = some id :=
    fun hv => by
      rw [List.getElem?_append_left (List.getElem?_eq_some_iff.mp hv).1]
      exact hv
  exact ⟨keep h.1, keep h.2.1, h.2.2⟩

namespace Stores

variable {s : StoredGraph} {g : Graph}

theorem contains_nodes (h : s.Stores g) (id : String) :
    s.nodes.contains id = g.hasNode id := by
  rw [Std.HashMap.contains_eq_isSome_getElem?, h.nodes, Graph.hasNode]

/-- **A node is added where it is kept.** -/
theorem addNode (h : s.Stores g) (n : Node) :
    (s.addNode n).1.Stores (g.addNode n) := by
  unfold StoredGraph.addNode Graph.addNode
  rw [h.contains_nodes]
  split
  · exact h
  · next hnew =>
    have hnone : g.node? n.id = none := by simpa [Graph.hasNode] using hnew
    have habsent : n.id ∉ s.weights := by
      rw [h.weights, ← Graph.hasNode_iff]
      exact hnew
    exact {
      nodes := by
        intro id
        show (s.nodes.insert n.id n)[id]? = (g.nodes ++ [n]).find? _
        rw [Std.HashMap.getElem?_insert, List.find?_append, h.nodes]
        by_cases hid : n.id = id
        · subst hid
          rw [show g.nodes.find? _ = none from hnone]
          simp
        · simp [hid, Graph.node?]
      weights := by
        show s.weights ++ [n.id] = (g.nodes ++ [n]).map _
        rw [h.weights, List.map_append]
        rfl
      vertices := by
        intro id v
        show (s.vertices.insert n.id s.weights.length)[id]? = some v ↔
          (s.weights ++ [n.id])[v]? = some id
        rw [Std.HashMap.getElem?_insert, getElem?_concat_eq_some_iff]
        by_cases hid : n.id = id
        · subst hid
          have hno : s.weights[v]? ≠ some n.id := fun hv => habsent (List.mem_of_getElem? hv)
          simp [hno, eq_comm]
        · simp [hid, h.vertices]
      links := h.links.imp fun _ _ hjoins => hjoins.append [n.id]
      byName := by
        intro name
        show (if n.kind.isPart then s.byName else fileName s.byName _ _).getD name [] =
          (if n.kind.isPart then g.byName else g.byName.add _ _).get name
        split
        · exact h.byName name
        · rw [fileName, Std.HashMap.getD_insert, Index.get_add]
          by_cases hname : shortName n.id = name
          · subst hname
            simp [h.byName]
          · simp [hname, Ne.symm hname, h.byName, Std.LawfulEqCmp.compare_eq_iff_eq]
      selfReferences := h.selfReferences }

/-- A node is there when its id has a vertex. -/
theorem hasNode_iff (h : s.Stores g) {id : String} :
    g.hasNode id = true ↔ ∃ v, s.vertices[id]? = some v := by
  rw [Graph.hasNode_iff, ← h.weights, List.mem_iff_getElem?]
  exact exists_congr fun v => (h.vertices id v).symm

/-- Of two vertices and their ids, the vertices are the same if the ids are. -/
theorem vertex_eq_iff (h : s.Stores g) {a b : String} {v w : Nat}
    (ha : s.vertices[a]? = some v) (hb : s.weights[w]? = some b) : w = v ↔ b = a := by
  constructor
  · rintro rfl
    exact Option.some.inj (hb.symm.trans ((h.vertices a w).mp ha))
  · rintro rfl
    exact Option.some.inj (((h.vertices b w).mpr hb).symm.trans ha)

/-- An edge is there when its link is. -/
theorem any_links (h : s.Stores g) {a b : String} {v w : Nat} (ha : s.vertices[a]? = some v)
    (hb : s.vertices[b]? = some w) :
    s.links.any (fun l => l.source == v && l.target == w) = g.hasEdge a b := by
  have hends : ∀ {l e}, Joins s.weights l e →
      (l.source == v && l.target == w) = (e.source == a && e.target == b) := by
    intro l e hjoins
    rw [Bool.eq_iff_iff]
    simp [h.vertex_eq_iff ha hjoins.1, h.vertex_eq_iff hb hjoins.2.1]
  have hlinks := h.links
  unfold Graph.hasEdge
  generalize s.links = ls at hlinks
  generalize g.edges = es at hlinks
  induction hlinks with
  | nil => rfl
  | cons hjoins _ ih => rw [List.any_cons, List.any_cons, ih, hends hjoins]

/-- **An edge is added where it is kept.** -/
theorem addEdge (h : s.Stores g) (e : Edge) : (s.addEdge e).1.Stores (g.addEdge e) := by
  have hself : (s.selfReferences.any fun r => r.1 == e.source) =
      g.selfReferences.any fun r => r.1 == e.source := by rw [h.selfReferences]
  unfold StoredGraph.addEdge Graph.addEdge
  rw [hself]
  split
  · split
    · exact h
    · exact { h with selfReferences := congrArg (· ++ _) h.selfReferences }
  · split
    · next v w hv hw =>
      have hsource : g.hasNode e.source = true := h.hasNode_iff.mpr ⟨v, hv⟩
      have htarget : g.hasNode e.target = true := h.hasNode_iff.mpr ⟨w, hw⟩
      rw [h.any_links hv hw, hsource, htarget]
      show StoredGraph.Stores (if g.hasEdge e.source e.target then (s, false) else _).1
        (if g.hasEdge e.source e.target then g else _)
      split
      · exact h
      · have hjoins : Joins s.weights ⟨v, w, e.kind⟩ e :=
          ⟨(h.vertices _ _).mp hv, (h.vertices _ _).mp hw, rfl⟩
        exact { h with links := List.rel_append h.links (.cons hjoins .nil) }
    · next hnone =>
      -- an end without a vertex is an end without a node
      have hmissing : (g.hasNode e.source && g.hasNode e.target) = false := by
        refine Bool.eq_false_iff.mpr fun hboth => ?_
        obtain ⟨hsource, htarget⟩ := Bool.and_eq_true_iff.mp hboth
        obtain ⟨v, hv⟩ := h.hasNode_iff.mp hsource
        obtain ⟨w, hw⟩ := h.hasNode_iff.mp htarget
        exact hnone v w hv hw
      rw [hmissing]
      exact h

theorem extend (h : s.Stores g) (a : Addition) : (s.extend a).Stores (g.extend a) := by
  cases a with
  | node n => exact h.addNode n
  | edge e => exact h.addEdge e

end Stores

/-- **A sequence of additions stores the graph that it assembles.** -/
theorem stores_assemble (additions : List Addition) :
    (assemble additions).Stores (Graph.assemble additions) := by
  have run : ∀ (as : List Addition) (s : StoredGraph) (g : Graph), s.Stores g →
      (as.foldl extend s).Stores (as.foldl Graph.extend g) := by
    intro as
    induction as with
    | nil => exact fun _ _ h => h
    | cons a as ih => exact fun s g h => ih _ _ (h.extend a)
  exact run additions empty .empty stores_empty

end StoredGraph

/-! ## Elements by their short names -/

namespace Graph

/-- The elements with a short name, in the order of the nodes. -/
def named (g : Graph) (name : String) : List String :=
  (g.nodes.filter fun n => !n.kind.isPart && shortName n.id == name).map (·.id)

/-- **Every element is filed under its short name**, and nothing else is. -/
def FilesNames (g : Graph) : Prop := ∀ name, g.byName.get name = g.named name

theorem FilesNames.addNode {g : Graph} (h : g.FilesNames) (n : Node) :
    (g.addNode n).FilesNames := by
  intro name
  unfold named Graph.addNode
  split
  · exact h name
  · show (if n.kind.isPart then g.byName else g.byName.add _ _).get name =
      ((g.nodes ++ [n]).filter _).map _
    rw [List.filter_append, List.map_append]
    split
    · next hpart => simpa [hpart, named] using h name
    · next hpart =>
      rw [Index.get_add, h name, named]
      by_cases hname : shortName n.id = name
      · subst hname
        simp [hpart]
      · simp [hpart, hname, Ne.symm hname, Std.LawfulEqCmp.compare_eq_iff_eq]

theorem FilesNames.addEdge {g : Graph} (h : g.FilesNames) (e : Edge) :
    (g.addEdge e).FilesNames := by
  intro name
  have hbyName : (g.addEdge e).byName = g.byName := by
    unfold Graph.addEdge
    split
    · split <;> rfl
    · split <;> rfl
  rw [hbyName, h name, named, named, nodes_addEdge]

theorem filesNames_assemble (additions : List Addition) : (assemble additions).FilesNames :=
  List.foldlRecOn (motive := FilesNames) additions Graph.extend (fun _ => rfl)
    fun _ h a _ => by
      cases a with
      | node n => exact h.addNode n
      | edge e => exact h.addEdge e

end Graph

/-! ## What the places keep among each other -/

namespace StoredGraph

/-- **The tables, the vertices and the edges agree.** -/
structure Consistent (s : StoredGraph) : Prop where
  /-- The nodes and the vertices are found by the same ids. -/
  mem_nodes_iff : ∀ id, id ∈ s.nodes ↔ id ∈ s.vertices
  /-- A node stands under its own id. -/
  id_eq : ∀ (id : String) n, s.nodes[id]? = some n → n.id = id
  /-- A vertex carries the id by which it is found. -/
  weight : ∀ (id : String) v, s.vertices[id]? = some v → s.weights[v]? = some id
  /-- Every vertex is found by one id and no other. -/
  existsUnique_id : ∀ v < s.weights.length, ∃! id : String, s.vertices[id]? = some v
  /-- An edge joins two vertices. -/
  ends_lt : ∀ l ∈ s.links, l.source < s.weights.length ∧ l.target < s.weights.length
  /-- No edge joins a vertex to itself. -/
  source_ne_target : ∀ l ∈ s.links, l.source ≠ l.target
  /-- At most one edge leads from one vertex to another. -/
  nodup_ends : (s.links.map fun l => (l.source, l.target)).Nodup
  /-- Under a short name stand the elements that have it. -/
  mem_byName_iff : ∀ name id, id ∈ s.byName.getD name [] ↔
    ∃ n, s.nodes[id]? = some n ∧ n.kind.isPart = false ∧ shortName id = name
  /-- Each of them stands there once. -/
  nodup_byName : ∀ name, (s.byName.getD name []).Nodup
  /-- A self reference is noted once. -/
  nodup_selfReferences : (s.selfReferences.map Prod.fst).Nodup

namespace Stores

variable {s : StoredGraph} {g : Graph}

theorem exists_edge (h : s.Stores g) {l : Link} (hl : l ∈ s.links) :
    ∃ e ∈ g.edges, Joins s.weights l e := by
  have hlinks := h.links
  generalize s.links = ls at hl hlinks
  generalize g.edges = es at hlinks
  induction hlinks with
  | nil => exact absurd hl List.not_mem_nil
  | @cons l' e' _ _ hjoins _ ih =>
    rcases List.mem_cons.mp hl with rfl | hl
    · exact ⟨e', List.mem_cons_self, hjoins⟩
    · exact (ih hl).imp fun e he => ⟨List.mem_cons_of_mem e' he.1, he.2⟩

/-- The ends of the links carry the ends of the edges. -/
theorem map_links (h : s.Stores g) :
    (s.links.map fun l => (s.weights[l.source]?, s.weights[l.target]?)) =
      g.arrows.map fun a => (some a.1, some a.2) := by
  rw [Graph.arrows, List.map_map]
  have hlinks := h.links
  generalize s.links = ls at hlinks
  generalize g.edges = es at hlinks
  induction hlinks with
  | nil => rfl
  | cons hjoins _ ih => rw [List.map_cons, List.map_cons, ih, hjoins.1, hjoins.2.1]; rfl

/-- **Where a well-formed graph is stored, the places agree.** -/
theorem consistent (h : s.Stores g) (hwf : g.WellFormed) (hnames : g.FilesNames) :
    s.Consistent where
  mem_nodes_iff := fun id => by
    rw [← Std.HashMap.contains_iff_mem, h.contains_nodes, h.hasNode_iff,
      Std.HashMap.mem_iff_isSome_getElem?, Option.isSome_iff_exists]
  id_eq := by
    intro id n hn
    rw [h.nodes, Graph.node?] at hn
    simpa using List.find?_some hn
  weight := fun id v hv => (h.vertices id v).mp hv
  existsUnique_id := by
    intro v hv
    refine ⟨s.weights[v], (h.vertices _ v).mpr (List.getElem?_eq_getElem hv), fun id hid => ?_⟩
    have hcarries : s.weights[v]? = some id := (h.vertices id v).mp hid
    rw [List.getElem?_eq_getElem hv] at hcarries
    exact (Option.some.inj hcarries).symm
  ends_lt := by
    intro l hl
    obtain ⟨e, -, hjoins⟩ := h.exists_edge hl
    exact ⟨(List.getElem?_eq_some_iff.mp hjoins.1).1, (List.getElem?_eq_some_iff.mp hjoins.2.1).1⟩
  source_ne_target := by
    intro l hl hloop
    obtain ⟨e, he, hsource, htarget, -⟩ := h.exists_edge hl
    rw [hloop, htarget] at hsource
    exact hwf.ne_of_leads ⟨e, he, rfl, rfl⟩ (Option.some.inj hsource).symm
  nodup_ends := by
    have hinj : Function.Injective fun a : String × String => (some a.1, some a.2) := by
      rintro ⟨a, b⟩ ⟨c, d⟩ hab
      simpa using hab
    have hnodup := hwf.nodup_arrows.map hinj
    rw [← h.map_links] at hnodup
    refine List.Nodup.of_map (fun p : Nat × Nat => (s.weights[p.1]?, s.weights[p.2]?)) ?_
    rw [List.map_map]
    exact hnodup
  mem_byName_iff := by
    intro name id
    rw [h.byName, hnames name, h.nodes, Graph.named, List.mem_map]
    refine exists_congr fun n => ?_
    rw [hwf.node?_eq_some_iff, List.mem_filter, Bool.and_eq_true, Bool.not_eq_true', beq_iff_eq]
    constructor
    · rintro ⟨⟨hn, hpart, hname⟩, rfl⟩
      exact ⟨⟨hn, rfl⟩, hpart, hname⟩
    · rintro ⟨⟨hn, rfl⟩, hpart, hname⟩
      exact ⟨⟨hn, hpart, hname⟩, rfl⟩
  nodup_byName := by
    intro name
    rw [h.byName, hnames name, Graph.named]
    exact hwf.nodup_ids.sublist (List.filter_sublist.map _)
  nodup_selfReferences := by
    rw [h.selfReferences]
    exact hwf.nodup_selfIds

end Stores

/-- **Whatever is added, the places agree** and store the graph that was put together. A graph that
is built from schema blocks is stored so, with its owners and members in order. -/
theorem consistent_stored :
    (∀ additions, (assemble additions).Consistent ∧
      (assemble additions).Stores (Graph.assemble additions)) ∧
    ∀ options blocks, (ReferenceGraph.build options blocks).Owned ∧
      ∃ additions, (assemble additions).Stores (ReferenceGraph.build options blocks).toGraph := by
  constructor
  · intro additions
    have h := stores_assemble additions
    exact ⟨h.consistent (Graph.wellFormed_assemble additions)
      (Graph.filesNames_assemble additions), h⟩
  · intro options blocks
    obtain ⟨additions, hbuild⟩ := ReferenceGraph.isAssembled_build options blocks
    exact ⟨ReferenceGraph.owned_build options blocks, additions, hbuild ▸ stores_assemble additions⟩

end StoredGraph

end CsdlAudit
