import Mathlib.Data.List.Nodup
import CsdlAudit.Graph.Reach
import CsdlAudit.Proofs.Ascending

/-!
# Graphs put together step by step

A graph comes about by adding nodes and edges to the empty graph, in any order. Whatever the order,
the result is *well formed*: an id stands for one node, every edge joins two different nodes of the
graph, there is at most one edge from one node to another, and a node notes its self reference once.

What an addition does is said by one lemma for each view of the graph – its ids, the pairs of ids
that an edge joins (`Graph.Leads`) and the ids that refer to themselves (`Graph.selfIds`). Later
modules use these views and not the lists behind them.
-/

namespace CsdlAudit

/-- **One step of putting a graph together.** -/
inductive Addition where
  /-- A node is added. -/
  | node (n : Node)
  /-- An edge is added. -/
  | edge (e : Edge)

namespace Graph

/-- The graph after one addition. -/
def extend (g : Graph) : Addition → Graph
  | .node n => g.addNode n
  | .edge e => g.addEdge e

/-- **The graph of a sequence of additions.** -/
def assemble (additions : List Addition) : Graph := additions.foldl extend empty

/-- **An edge leads from one id to another.** -/
def Leads (g : Graph) (a b : String) : Prop := ∃ e ∈ g.edges, e.source = a ∧ e.target = b

/-- The ids that refer to themselves. -/
def selfIds (g : Graph) : List String := g.selfReferences.map Prod.fst

/-! ## Views of a graph -/

theorem hasNode_iff {g : Graph} {id : String} : g.hasNode id = true ↔ id ∈ g.ids := by
  simp [hasNode, node?, ids]

theorem hasEdge_iff {g : Graph} {a b : String} : g.hasEdge a b = true ↔ g.Leads a b := by
  simp [hasEdge, Leads]

theorem mem_arrows {g : Graph} {a b : String} : (a, b) ∈ g.arrows ↔ g.Leads a b := by
  simp [arrows, Leads]

theorem mem_targets {g : Graph} {a b : String} : b ∈ g.targets a ↔ g.Leads a b := by
  simp [targets, Leads, and_assoc]

theorem mem_sources {g : Graph} {a b : String} : a ∈ g.sources b ↔ g.Leads a b := by
  simp only [sources, Leads, List.mem_map, List.mem_filter, beq_iff_eq]
  exact exists_congr (fun e => ⟨fun h => ⟨h.1.1, h.2, h.1.2⟩, fun h => ⟨⟨h.1, h.2.2⟩, h.2.1⟩⟩)

@[simp] theorem mem_dependencies {g : Graph} {a b : String} :
    b ∈ g.dependencies a ↔ g.Leads a b := by
  rw [dependencies, Ascending.mem_ofList, mem_targets]

@[simp] theorem mem_dependents {g : Graph} {a b : String} :
    a ∈ g.dependents b ↔ g.Leads a b := by
  rw [dependents, Ascending.mem_ofList, mem_sources]

@[simp] theorem mem_sortedIds {g : Graph} {id : String} : id ∈ g.sortedIds ↔ id ∈ g.ids :=
  Ascending.mem_ofList

/-! ## What an addition changes -/

theorem mem_ids_addNode {g : Graph} {n : Node} {id : String} :
    id ∈ (g.addNode n).ids ↔ id ∈ g.ids ∨ id = n.id := by
  unfold addNode
  split
  · next h =>
    rw [hasNode_iff] at h
    exact ⟨Or.inl, fun hid => hid.elim (fun hid => hid) (fun e => e ▸ h)⟩
  · simp [ids, eq_comm]

@[simp] theorem edges_addNode (g : Graph) (n : Node) : (g.addNode n).edges = g.edges := by
  unfold addNode
  split <;> rfl

@[simp] theorem selfReferences_addNode (g : Graph) (n : Node) :
    (g.addNode n).selfReferences = g.selfReferences := by
  unfold addNode
  split <;> rfl

@[simp] theorem leads_addNode {g : Graph} {n : Node} {a b : String} :
    (g.addNode n).Leads a b ↔ g.Leads a b := by
  simp [Leads]

@[simp] theorem selfIds_addNode (g : Graph) (n : Node) : (g.addNode n).selfIds = g.selfIds := by
  simp [selfIds]

@[simp] theorem nodes_addEdge (g : Graph) (e : Edge) : (g.addEdge e).nodes = g.nodes := by
  unfold addEdge
  split
  · split <;> rfl
  · split <;> rfl

@[simp] theorem ids_addEdge (g : Graph) (e : Edge) : (g.addEdge e).ids = g.ids := by
  simp [ids]

/-- **An edge joins what it is asked to join**, unless both ends are one node or an end is
missing. -/
theorem leads_addEdge {g : Graph} {e : Edge} {a b : String} :
    (g.addEdge e).Leads a b ↔
      g.Leads a b ∨ a = e.source ∧ b = e.target ∧ a ≠ b ∧ a ∈ g.ids ∧ b ∈ g.ids := by
  unfold addEdge
  split
  · next h =>
    have : ¬(a = e.source ∧ b = e.target ∧ a ≠ b ∧ a ∈ g.ids ∧ b ∈ g.ids) :=
      fun hab => hab.2.2.1 (by rw [hab.1, hab.2.1, h])
    split <;> simp [this, Leads]
  · next hne =>
    split
    · next h =>
      refine ⟨Or.inl, fun hab => hab.elim id ?_⟩
      rintro ⟨rfl, rfl, -, ha, hb⟩
      -- both ends are there, so the edge was refused because there is one already
      simpa [hasNode_iff.mpr ha, hasNode_iff.mpr hb, hasEdge_iff] using h
    · next h =>
      simp only [Bool.or_eq_true, Bool.not_eq_true', not_or, Bool.not_eq_false,
        Bool.and_eq_true, hasNode_iff] at h
      simp only [Leads, List.mem_append, List.mem_singleton, or_and_right, exists_or,
        exists_eq_left]
      refine or_congr Iff.rfl ⟨?_, fun hab => ⟨hab.1.symm, hab.2.1.symm⟩⟩
      rintro ⟨rfl, rfl⟩
      exact ⟨rfl, rfl, hne, h.1.1, h.1.2⟩

/-- An edge is added as it is given. -/
theorem mem_edges_addEdge {g : Graph} {e e' : Edge} (h : e' ∈ (g.addEdge e).edges) :
    e' ∈ g.edges ∨ e' = e := by
  unfold addEdge at h
  split at h
  · split at h <;> exact Or.inl h
  · split at h
    · exact Or.inl h
    · exact (List.mem_append.mp h).imp_right List.mem_singleton.mp

/-- A self reference is noted as it is given. -/
theorem mem_selfReferences_addEdge {g : Graph} {e : Edge} {x : String × EdgeKind}
    (h : x ∈ (g.addEdge e).selfReferences) :
    x ∈ g.selfReferences ∨ x = (e.source, e.kind) ∧ e.source = e.target := by
  unfold addEdge at h
  split at h
  · next he =>
    split at h
    · exact Or.inl h
    · exact (List.mem_append.mp h).imp_right fun h => ⟨List.mem_singleton.mp h, he⟩
  · split at h <;> exact Or.inl h

theorem selfReferences_addEdge_of_ne {g : Graph} {e : Edge} (h : e.source ≠ e.target) :
    (g.addEdge e).selfReferences = g.selfReferences := by
  rw [addEdge, if_neg h]
  split <;> rfl

/-- **A self reference is noted and no other is made.** -/
theorem mem_selfIds_addEdge {g : Graph} {e : Edge} {a : String} :
    a ∈ (g.addEdge e).selfIds ↔ a ∈ g.selfIds ∨ a = e.source ∧ e.source = e.target := by
  unfold addEdge
  split
  · next h =>
    split
    · next hany =>
      refine ⟨Or.inl, fun ha => ha.elim id ?_⟩
      rintro ⟨rfl, -⟩
      simpa [selfIds] using hany
    · simp [selfIds, h]
  · next h =>
    have : ¬(a = e.source ∧ e.source = e.target) := fun ha => h ha.2
    split <;> simp [this, selfIds]

/-! ## Well-formed graphs -/

/-- **What every graph keeps to**, in whatever order it was put together. -/
structure WellFormed (g : Graph) : Prop where
  /-- An id stands for one node. -/
  nodup_ids : g.ids.Nodup
  /-- An edge starts at a node. -/
  source_mem : ∀ {a b}, g.Leads a b → a ∈ g.ids
  /-- An edge ends at a node. -/
  target_mem : ∀ {a b}, g.Leads a b → b ∈ g.ids
  /-- No edge joins a node to itself. -/
  ne_of_leads : ∀ {a b}, g.Leads a b → a ≠ b
  /-- At most one edge leads from one node to another. -/
  nodup_arrows : g.arrows.Nodup
  /-- A self reference is noted once. -/
  nodup_selfIds : g.selfIds.Nodup

theorem wellFormed_empty : empty.WellFormed where
  nodup_ids := List.nodup_nil
  source_mem := fun h => by simp [Leads, empty] at h
  target_mem := fun h => by simp [Leads, empty] at h
  ne_of_leads := fun h => by simp [Leads, empty] at h
  nodup_arrows := List.nodup_nil
  nodup_selfIds := List.nodup_nil

namespace WellFormed

variable {g : Graph}

theorem addNode (h : g.WellFormed) (n : Node) : (g.addNode n).WellFormed where
  nodup_ids := by
    unfold Graph.addNode
    split
    · exact h.nodup_ids
    · next hn =>
      rw [hasNode_iff] at hn
      simpa [ids, List.nodup_append] using ⟨h.nodup_ids, by simpa [ids] using hn⟩
  source_mem := fun hab => mem_ids_addNode.mpr (Or.inl (h.source_mem (leads_addNode.mp hab)))
  target_mem := fun hab => mem_ids_addNode.mpr (Or.inl (h.target_mem (leads_addNode.mp hab)))
  ne_of_leads := fun hab => h.ne_of_leads (leads_addNode.mp hab)
  nodup_arrows := by simpa [arrows] using h.nodup_arrows
  nodup_selfIds := by simpa using h.nodup_selfIds

theorem addEdge (h : g.WellFormed) (e : Edge) : (g.addEdge e).WellFormed where
  nodup_ids := by simpa using h.nodup_ids
  source_mem := by
    intro a b hab
    rw [ids_addEdge]
    exact (leads_addEdge.mp hab).elim h.source_mem (fun hab => hab.2.2.2.1)
  target_mem := by
    intro a b hab
    rw [ids_addEdge]
    exact (leads_addEdge.mp hab).elim h.target_mem (fun hab => hab.2.2.2.2)
  ne_of_leads := fun hab => (leads_addEdge.mp hab).elim h.ne_of_leads (fun hab => hab.2.2.1)
  nodup_arrows := by
    unfold Graph.addEdge
    split
    · split <;> exact h.nodup_arrows
    · split
      · exact h.nodup_arrows
      · next hnew =>
        have hnot : (e.source, e.target) ∉ g.arrows := fun hmem =>
          hnew (by simp [hasEdge_iff.mpr (mem_arrows.mp hmem)])
        simpa [arrows, List.nodup_append] using
          ⟨h.nodup_arrows, by simpa [arrows] using hnot⟩
  nodup_selfIds := by
    unfold Graph.addEdge
    split
    · split
      · exact h.nodup_selfIds
      · next hnew =>
        have hnot : e.source ∉ g.selfIds := fun hmem => hnew (by simpa [selfIds] using hmem)
        show (List.map Prod.fst (g.selfReferences ++ [(e.source, e.kind)])).Nodup
        rw [List.map_append, List.map_singleton]
        exact List.nodup_append'.mpr
          ⟨h.nodup_selfIds, List.nodup_singleton _, List.disjoint_singleton.mpr hnot⟩
    · split <;> exact h.nodup_selfIds

/-- **The node of an id** is the one that has it. -/
theorem node?_eq_some_iff (h : g.WellFormed) {id : String} {n : Node} :
    g.node? id = some n ↔ n ∈ g.nodes ∧ n.id = id :=
  find?_key_eq_some_iff h.nodup_ids

theorem extend (h : g.WellFormed) (a : Addition) : (g.extend a).WellFormed := by
  cases a with
  | node n => exact h.addNode n
  | edge e => exact h.addEdge e

end WellFormed

/-- **Every sequence of additions makes a well-formed graph.** -/
theorem wellFormed_assemble (additions : List Addition) : (assemble additions).WellFormed :=
  List.foldlRecOn additions Graph.extend wellFormed_empty fun _ h a _ => h.extend a

end Graph

end CsdlAudit
