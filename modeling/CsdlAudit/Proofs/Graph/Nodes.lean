import CsdlAudit.Graph.Build
import CsdlAudit.Proofs.Graph.Assembly
import CsdlAudit.Proofs.Graph.Declared
import CsdlAudit.Proofs.Index

/-!
# The nodes of a graph of references

All nodes are made before any reference is followed. The first declaration of an id makes its node,
and later ones of the same id share it (`Declared.introducing`); so the nodes of the stage are those
of the introducing declarations (`NodeStage.nodes_ofDeclared`), and the operations found by a name
are those that it introduces (`NodeStage.get_operations_ofDeclared`). A part is joined to its owner
by an edge, whoever introduced it; as the owner always comes first, no such edge is lost, and the
stage has no others (`NodeStage.leads_declared`).
-/

namespace CsdlAudit

namespace Declared

/-- **The declarations that introduce their ids**: those whose id is neither one of `taken` nor that
of an earlier declaration. -/
def introducing (taken : List String) : List Declared → List Declared
  | [] => []
  | d :: ds =>
    match d.node? with
    | none => introducing taken ds
    | some n =>
      if n.id ∈ taken then introducing taken ds else d :: introducing (taken ++ [n.id]) ds

/-- The id of an operation with the name `plainId`. -/
def operationId? (plainId : String) : Declared → Option String
  | .operation name n => if plainId = name then some n.id else none
  | _ => none

/-- **Every part comes after its owner**, and the owner is another node; `known` are ids that were
declared before. -/
def OwnersFirst : (known : List String) → List Declared → Prop
  | _, [] => True
  | known, d :: ds =>
    (∀ owner n, d = .part owner n → owner ∈ known ∧ owner ≠ n.id) ∧
      OwnersFirst ((d.node?.map (·.id)).toList ++ known) ds

end Declared

namespace Declared

variable {known known' : List String} {ds es : List Declared}

theorem OwnersFirst.mono (h : OwnersFirst known ds) (hsub : known ⊆ known') :
    OwnersFirst known' ds := by
  induction ds generalizing known known' with
  | nil => trivial
  | cons d ds ih =>
    refine ⟨fun owner n hd => (h.1 owner n hd).imp_left (hsub ·), ih h.2 ?_⟩
    exact List.append_subset.mpr
      ⟨List.subset_append_left _ _, List.Subset.trans hsub (List.subset_append_right _ _)⟩

theorem OwnersFirst.append (hd : OwnersFirst known ds) (he : OwnersFirst known es) :
    OwnersFirst known (ds ++ es) := by
  induction ds generalizing known with
  | nil => exact he
  | cons d ds ih => exact ⟨hd.1, ih hd.2 (he.mono (List.subset_append_right _ _))⟩

theorem OwnersFirst.flatMap {α : Type} {l : List α} {f : α → List Declared}
    (h : ∀ x ∈ l, OwnersFirst known (f x)) : OwnersFirst known (l.flatMap f) := by
  induction l with
  | nil => trivial
  | cons x l ih =>
    rw [List.flatMap_cons]
    exact (h x List.mem_cons_self).append (ih fun y hy => h y (List.mem_cons_of_mem x hy))

/-- Parts of one known owner may come in any order. -/
theorem OwnersFirst.of_owner (id : String)
    (h : ∀ owner n, .part owner n ∈ ds → owner = id ∧ owner ≠ n.id) (hid : id ∈ known) :
    OwnersFirst known ds := by
  induction ds generalizing known with
  | nil => trivial
  | cons d ds ih =>
    refine ⟨fun owner n hd => ?_, ih (fun owner n hn => h owner n (List.mem_cons_of_mem d hn))
      (List.mem_append_right _ hid)⟩
    obtain ⟨rfl, hne⟩ := h owner n (hd ▸ List.mem_cons_self)
    exact ⟨hid, hne⟩

theorem introducing_sublist (taken : List String) (ds : List Declared) :
    (introducing taken ds).Sublist ds := by
  induction ds generalizing taken with
  | nil => exact List.Sublist.refl _
  | cons d ds ih =>
    rw [introducing]
    cases d.node? with
    | none => exact (ih taken).cons d
    | some n =>
      dsimp only
      split
      · exact (ih taken).cons d
      · exact (ih _).cons_cons d

end Declared

/-- **In what the blocks declare every part comes after its owner.** -/
theorem ownersFirst_declared (blocks : List (String × SchemaBlock)) :
    Declared.OwnersFirst [] (declared blocks) := by
  rw [declared_eq_flatMap]
  refine Declared.OwnersFirst.flatMap fun e _ => Declared.OwnersFirst.flatMap fun s _ =>
    Declared.OwnersFirst.flatMap fun d hd => ?_
  obtain ⟨first, n, rest, heq, hfirst, hid, hnot, hrest⟩ := s.ownedBy_declare hd
  rw [heq]
  refine ⟨fun owner m hm => absurd hm (hnot owner m), ?_⟩
  refine Declared.OwnersFirst.of_owner n.id (fun owner m hm => ?_) ?_
  · obtain ⟨hpart, segment, hsegment⟩ := hrest.part hm rfl
    obtain ⟨rfl, -⟩ := Declared.part.inj hpart
    exact ⟨hid.symm, hsegment ▸ Scope.ne_partId _ segment⟩
  · simp [hfirst]

/-- **The operations of a name**: the ids that an operation of the name introduces, in order. -/
def operationsNamed (ds : List Declared) (plainId : String) : List String :=
  (Declared.introducing [] ds).filterMap (Declared.operationId? plainId)

namespace NodeStage

variable {s : NodeStage} {d : Declared} {ds : List Declared} {a b name : String}

/-! ## One declaration -/

theorem add_operation_of_mem {n : Node} (h : n.id ∈ s.graph.ids) :
    s.add (.operation name n) = s := by
  rw [add, if_pos (Graph.hasNode_iff.mpr h)]

theorem add_operation_of_notMem {n : Node} (h : n.id ∉ s.graph.ids) :
    s.add (.operation name n) = ⟨s.graph.addNode n, s.operations.add name n.id⟩ := by
  rw [add, if_neg (fun hn => h (Graph.hasNode_iff.mp hn))]

theorem nodes_addNode (g : Graph) (n : Node) :
    (g.addNode n).nodes = if n.id ∈ g.ids then g.nodes else g.nodes ++ [n] := by
  unfold Graph.addNode
  by_cases h : n.id ∈ g.ids
  · rw [if_pos (Graph.hasNode_iff.mpr h), if_pos h]
  · rw [if_neg (fun hn => h (Graph.hasNode_iff.mp hn)), if_neg h]

/-- A declaration adds its node unless the id is taken. -/
theorem nodes_add (s : NodeStage) (d : Declared) : (s.add d).graph.nodes =
    s.graph.nodes ++ (Declared.introducing s.graph.ids [d]).filterMap Declared.node? := by
  have addNode : ∀ n, (s.graph.addNode n).nodes = s.graph.nodes ++
      (if n.id ∈ s.graph.ids then [] else [n]) := by
    intro n
    rw [nodes_addNode]
    split
    · rw [List.append_nil]
    · rfl
  cases d with
  | element n =>
    rw [add, addNode]
    simp only [Declared.introducing, Declared.node?]
    split <;> rfl
  | operation plainId n =>
    by_cases h : n.id ∈ s.graph.ids
    · simp [add_operation_of_mem h, Declared.introducing, Declared.node?, h]
    · simp [add_operation_of_notMem h, Declared.introducing, Declared.node?, h, nodes_addNode]
  | part owner n =>
    rw [add, Graph.nodes_addEdge, addNode]
    simp only [Declared.introducing, Declared.node?]
    split <;> rfl
  | reference r => exact (List.append_nil _).symm

/-- The id of a declaration is taken when it is made. -/
theorem mem_ids_add {id : String} :
    id ∈ (s.add d).graph.ids ↔ id ∈ s.graph.ids ∨ ∃ n, d.node? = some n ∧ n.id = id := by
  cases d with
  | element n => simp [add, Graph.mem_ids_addNode, Declared.node?, eq_comm]
  | operation plainId n =>
    by_cases hn : n.id ∈ s.graph.ids
    · rw [add_operation_of_mem hn]
      refine ⟨Or.inl, fun h => h.elim (fun h => h) ?_⟩
      rintro ⟨m, hm, rfl⟩
      exact Option.some.inj hm ▸ hn
    · simp [add_operation_of_notMem hn, Graph.mem_ids_addNode, Declared.node?, eq_comm]
  | part owner n => simp [add, Graph.mem_ids_addNode, Declared.node?, eq_comm]
  | reference r => simp [add, Declared.node?]

/-- A declaration adds its id to those that are taken. -/
theorem introducing_cons (s : NodeStage) (d : Declared) (ds : List Declared) :
    Declared.introducing s.graph.ids (d :: ds) =
      Declared.introducing s.graph.ids [d] ++ Declared.introducing (s.add d).graph.ids ds := by
  have hids : (s.add d).graph.ids = s.graph.ids ++
      ((Declared.introducing s.graph.ids [d]).filterMap Declared.node?).map (·.id) := by
    rw [Graph.ids, nodes_add, List.map_append]
    rfl
  rw [hids]
  generalize s.graph.ids = taken
  cases hd : d.node? with
  | none => simp [Declared.introducing, hd]
  | some n =>
    by_cases h : n.id ∈ taken
    · simp [Declared.introducing, hd, h]
    · simp [Declared.introducing, hd, h]

/-- What a declaration adds to the operations of a name. -/
theorem get_operations_add (s : NodeStage) (d : Declared) (name : String) :
    (s.add d).operations.get name = s.operations.get name ++
      (Declared.introducing s.graph.ids [d]).filterMap (Declared.operationId? name) := by
  cases d with
  | element n | part owner n =>
    simp only [Declared.introducing, Declared.node?]
    split <;> simp [add, Declared.operationId?]
  | operation plainId n =>
    by_cases h : n.id ∈ s.graph.ids
    · simp [add_operation_of_mem h, Declared.introducing, Declared.node?, h]
    · rw [add_operation_of_notMem h]
      by_cases hname : name = plainId
      · simp [Declared.introducing, Declared.node?, Declared.operationId?, h, hname]
      · simp [Declared.introducing, Declared.node?, Declared.operationId?, h, hname]
  | reference r => simp [add, Declared.introducing, Declared.node?]

/-- An operation is found by a name just when there is one of the name. -/
theorem hasKey_operations_add
    (h : ∀ name, s.operations.hasKey name = !(s.operations.get name).isEmpty) (d : Declared)
    (name : String) :
    (s.add d).operations.hasKey name = !((s.add d).operations.get name).isEmpty := by
  cases d with
  | element n | part owner n | reference r => exact h name
  | operation plainId n =>
    by_cases hn : n.id ∈ s.graph.ids
    · rw [add_operation_of_mem hn]
      exact h name
    · rw [add_operation_of_notMem hn, Index.hasKey_add, Index.get_add, h name]
      by_cases hname : compare name plainId = .eq <;> simp [hname]

/-- A part is joined to its owner. -/
theorem leads_add (howner : ∀ owner n, d = .part owner n → owner ∈ s.graph.ids ∧ owner ≠ n.id) :
    (s.add d).graph.Leads a b ↔ s.graph.Leads a b ∨ ∃ n, d = .part a n ∧ n.id = b := by
  cases d with
  | element n => simp [add]
  | operation plainId n =>
    by_cases hn : n.id ∈ s.graph.ids
    · simp [add_operation_of_mem hn]
    · simp [add_operation_of_notMem hn]
  | part owner n =>
    obtain ⟨hmem, hne⟩ := howner owner n rfl
    rw [add, Graph.leads_addEdge, Graph.leads_addNode]
    refine or_congr Iff.rfl ⟨?_, ?_⟩
    · rintro ⟨rfl, rfl, -⟩
      exact ⟨n, rfl, rfl⟩
    · rintro ⟨m, hm, rfl⟩
      obtain ⟨rfl, rfl⟩ := Declared.part.inj hm
      exact ⟨rfl, rfl, hne, Graph.mem_ids_addNode.mpr (Or.inl hmem),
        Graph.mem_ids_addNode.mpr (Or.inr rfl)⟩
  | reference r => simp [add]

/-- Every edge that a declaration adds joins a part to its owner. -/
theorem edges_add {e : Edge} (h : e ∈ (s.add d).graph.edges) :
    e ∈ s.graph.edges ∨ ∃ owner n, d = .part owner n ∧ e = ⟨owner, n.id, .contains⟩ := by
  cases d with
  | element n =>
    rw [add, Graph.edges_addNode] at h
    exact Or.inl h
  | operation plainId n =>
    by_cases hn : n.id ∈ s.graph.ids
    · rw [add_operation_of_mem hn] at h
      exact Or.inl h
    · rw [add_operation_of_notMem hn, Graph.edges_addNode] at h
      exact Or.inl h
  | part owner n =>
    rw [add] at h
    rcases Graph.mem_edges_addEdge h with h | rfl
    · rw [Graph.edges_addNode] at h
      exact Or.inl h
    · exact Or.inr ⟨owner, n, rfl, rfl⟩
  | reference r => exact Or.inl h

/-- No declaration makes a self reference. -/
theorem selfReferences_add (howner : ∀ owner n, d = .part owner n → owner ≠ n.id) :
    (s.add d).graph.selfReferences = s.graph.selfReferences := by
  cases d with
  | element n => exact Graph.selfReferences_addNode ..
  | operation plainId n =>
    by_cases hn : n.id ∈ s.graph.ids
    · rw [add_operation_of_mem hn]
    · rw [add_operation_of_notMem hn, Graph.selfReferences_addNode]
  | part owner n =>
    rw [add, Graph.selfReferences_addEdge_of_ne (howner owner n rfl),
      Graph.selfReferences_addNode]
  | reference r => rfl

theorem wellFormed_add (h : s.graph.WellFormed) (d : Declared) : (s.add d).graph.WellFormed := by
  cases d with
  | element n => exact h.addNode n
  | operation plainId n =>
    by_cases hn : n.id ∈ s.graph.ids
    · rw [add_operation_of_mem hn]
      exact h
    · rw [add_operation_of_notMem hn]
      exact h.addNode n
  | part owner n => exact (h.addNode n).addEdge _
  | reference r => exact h

/-! ## All declarations -/

theorem nodes_foldl (s : NodeStage) (ds : List Declared) : (ds.foldl add s).graph.nodes =
    s.graph.nodes ++ (Declared.introducing s.graph.ids ds).filterMap Declared.node? := by
  induction ds generalizing s with
  | nil => exact (List.append_nil _).symm
  | cons d ds ih =>
    rw [List.foldl_cons, ih, introducing_cons, nodes_add, List.filterMap_append, List.append_assoc]

theorem get_operations_foldl (s : NodeStage) (ds : List Declared) (name : String) :
    (ds.foldl add s).operations.get name = s.operations.get name ++
      (Declared.introducing s.graph.ids ds).filterMap (Declared.operationId? name) := by
  induction ds generalizing s with
  | nil => exact (List.append_nil _).symm
  | cons d ds ih =>
    rw [List.foldl_cons, ih, introducing_cons, get_operations_add, List.filterMap_append,
      List.append_assoc]

/-- **The nodes of the stage are those of the introducing declarations.** -/
theorem nodes_ofDeclared (ds : List Declared) :
    (ofDeclared ds).graph.nodes = (Declared.introducing [] ds).filterMap Declared.node? :=
  nodes_foldl initial ds

/-- **The operations found by a name are those that it introduces.** -/
theorem get_operations_ofDeclared (ds : List Declared) (name : String) :
    (ofDeclared ds).operations.get name = operationsNamed ds name :=
  get_operations_foldl initial ds name

theorem hasKey_operations_ofDeclared (ds : List Declared) (name : String) :
    (ofDeclared ds).operations.hasKey name = !(operationsNamed ds name).isEmpty := by
  have hstage : ∀ name, (ofDeclared ds).operations.hasKey name =
      !((ofDeclared ds).operations.get name).isEmpty :=
    List.foldlRecOn (motive := fun s : NodeStage => ∀ name,
      s.operations.hasKey name = !(s.operations.get name).isEmpty) ds add (fun _ => rfl)
      fun _ h d _ => hasKey_operations_add h d
  rw [← get_operations_ofDeclared]
  exact hstage name

theorem wellFormed_ofDeclared (ds : List Declared) : (ofDeclared ds).graph.WellFormed :=
  List.foldlRecOn (motive := fun s : NodeStage => s.graph.WellFormed) ds add
    Graph.wellFormed_empty fun _ h d _ => wellFormed_add h d

/-- **Every declared id has a node**, and no other has. -/
theorem mem_ids_foldl {id : String} : id ∈ (ds.foldl add s).graph.ids ↔
    id ∈ s.graph.ids ∨ ∃ d ∈ ds, ∃ n, d.node? = some n ∧ n.id = id := by
  induction ds generalizing s with
  | nil => simp
  | cons d ds ih =>
    rw [List.foldl_cons, ih, mem_ids_add]
    simp [or_assoc]

/-- **Every part is joined to its owner**, and no other edge is made. -/
theorem leads_foldl (h : Declared.OwnersFirst s.graph.ids ds) :
    (ds.foldl add s).graph.Leads a b ↔ s.graph.Leads a b ∨ ∃ n, .part a n ∈ ds ∧ n.id = b := by
  induction ds generalizing s with
  | nil => simp
  | cons d ds ih =>
    -- the ids that are known to the owners to come are those of the stage
    have hrest : Declared.OwnersFirst (s.add d).graph.ids ds := by
      refine h.2.mono (fun id hid => mem_ids_add.mpr ?_)
      rcases List.mem_append.mp hid with hid | hid
      · exact Or.inr (by simpa using hid)
      · exact Or.inl hid
    rw [List.foldl_cons, ih hrest, leads_add h.1]
    simp only [List.mem_cons, or_and_right, exists_or, or_assoc, eq_comm]

theorem edges_foldl {e : Edge} (h : e ∈ (ds.foldl add s).graph.edges) :
    e ∈ s.graph.edges ∨ ∃ owner n, .part owner n ∈ ds ∧ e = ⟨owner, n.id, .contains⟩ := by
  induction ds generalizing s with
  | nil => exact Or.inl h
  | cons d ds ih =>
    rcases ih h with h | ⟨owner, n, hmem, he⟩
    · refine (edges_add h).imp_right ?_
      rintro ⟨owner, n, rfl, he⟩
      exact ⟨owner, n, List.mem_cons_self, he⟩
    · exact Or.inr ⟨owner, n, List.mem_cons_of_mem d hmem, he⟩

theorem selfReferences_foldl {known : List String} (h : Declared.OwnersFirst known ds) :
    (ds.foldl add s).graph.selfReferences = s.graph.selfReferences := by
  induction ds generalizing s known with
  | nil => rfl
  | cons d ds ih =>
    rw [List.foldl_cons, ih h.2, selfReferences_add fun owner n hd => (h.1 owner n hd).2]

/-! ## The declarations of blocks -/

variable (blocks : List (String × SchemaBlock))

/-- **Every part is joined to its owner** when all nodes of the blocks are made. -/
theorem leads_declared : (ofDeclared (declared blocks)).graph.Leads a b ↔
    ∃ n, .part a n ∈ declared blocks ∧ n.id = b := by
  refine (leads_foldl (s := initial) (ownersFirst_declared blocks)).trans ?_
  simp [initial, Graph.empty, Graph.Leads]

theorem selfReferences_declared :
    (ofDeclared (declared blocks)).graph.selfReferences = [] :=
  selfReferences_foldl (ownersFirst_declared blocks)

theorem mem_ids_declared {id : String} : id ∈ (ofDeclared (declared blocks)).graph.ids ↔
    ∃ d ∈ declared blocks, ∃ n, d.node? = some n ∧ n.id = id := by
  rw [ofDeclared, mem_ids_foldl]
  simp [initial, Graph.empty, Graph.ids]

end NodeStage

/-! ## Elements and their references -/

/-- **An element holds a reference**: some block has a definition of the element with it. -/
def Holds (blocks : List (String × SchemaBlock)) (id : String) (r : Reference) : Prop :=
  ∃ e ∈ blocks, ∃ s ∈ Scope.of? e, ∃ d ∈ e.2.topLevel,
    id = s.idOf d.elementName ∧ r ∈ d.references s

theorem mem_references {ds : List Declared} {r : Reference} :
    r ∈ references ds ↔ .reference r ∈ ds := by
  simp only [references, List.mem_filterMap]
  constructor
  · rintro ⟨d, hd, h⟩
    cases d with
    | reference r' => exact Option.some.inj h ▸ hd
    | element | operation | part => exact absurd h (by simp)
  · exact fun h => ⟨_, h, rfl⟩

theorem mem_references_declared {blocks : List (String × SchemaBlock)} {r : Reference} :
    r ∈ references (declared blocks) ↔ ∃ id, Holds blocks id r := by
  rw [references_declared]
  simp only [heldReferences, List.mem_flatMap, Option.mem_toList, Holds]
  constructor
  · rintro ⟨e, he, s, hs, d, hd, hr⟩
    exact ⟨_, e, he, s, hs, d, hd, rfl, hr⟩
  · rintro ⟨-, e, he, s, hs, d, hd, rfl, hr⟩
    exact ⟨e, he, s, hs, d, hd, hr⟩

/-- Every declaration is one of a top-level element. -/
theorem exists_declare_of_mem {blocks : List (String × SchemaBlock)} {d : Declared}
    (h : d ∈ declared blocks) :
    ∃ e ∈ blocks, ∃ s ∈ Scope.of? e, ∃ definition ∈ e.2.topLevel, d ∈ s.declare definition := by
  rw [declared_eq_flatMap] at h
  obtain ⟨e, he, h⟩ := List.mem_flatMap.mp h
  obtain ⟨s, hs, h⟩ := List.mem_flatMap.mp h
  obtain ⟨definition, hdefinition, h⟩ := List.mem_flatMap.mp h
  exact ⟨e, he, s, Option.mem_toList.mp hs, definition, hdefinition, h⟩

/-- What is declared for a definition is declared by the blocks. -/
theorem mem_declared {blocks : List (String × SchemaBlock)} {e : String × SchemaBlock} {s : Scope}
    {d : Definition} {x : Declared} (he : e ∈ blocks) (hs : s ∈ Scope.of? e)
    (hd : d ∈ e.2.topLevel) (hx : x ∈ s.declare d) : x ∈ declared blocks := by
  rw [declared_eq_flatMap]
  exact List.mem_flatMap.mpr ⟨e, he, List.mem_flatMap.mpr ⟨s, Option.mem_toList.mpr hs,
    List.mem_flatMap.mpr ⟨d, hd, hx⟩⟩⟩

namespace Holds

variable {blocks : List (String × SchemaBlock)} {id : String} {r : Reference}

/-- An element has a node. -/
theorem mem_ids (h : Holds blocks id r) :
    id ∈ (NodeStage.ofDeclared (declared blocks)).graph.ids := by
  obtain ⟨e, he, s, hs, d, hd, rfl, -⟩ := h
  obtain ⟨first, n, rest, heq, hfirst, hid, -⟩ := s.ownedBy_declare hd
  refine (NodeStage.mem_ids_declared blocks).mpr ⟨first, ?_, n, hfirst, hid⟩
  exact mem_declared he hs hd (heq ▸ List.mem_cons_self)

/-- **The node of a reference** is that of the element or of one of its parts. -/
theorem source_eq_or_leads (h : Holds blocks id r) :
    r.source = id ∨ (NodeStage.ofDeclared (declared blocks)).graph.Leads id r.source := by
  obtain ⟨e, he, s, hs, d, hd, rfl, hr⟩ := h
  obtain ⟨first, n, rest, heq, hfirst, -, -, hrest⟩ := s.ownedBy_declare hd
  have hmem : .reference r ∈ s.declare d := mem_references.mp (references_declare s d ▸ hr)
  rw [heq] at hmem
  rcases List.mem_cons.mp hmem with rfl | hmem
  · exact absurd hfirst (by simp [Declared.node?])
  · refine (hrest.source hmem).imp_right ?_
    rintro ⟨m, hm, hsource⟩
    refine (NodeStage.leads_declared blocks).mpr ⟨m, ?_, hsource⟩
    exact mem_declared he hs hd (heq ▸ List.mem_cons_of_mem first hm)

/-- The node of a reference is there. -/
theorem source_mem_ids (h : Holds blocks id r) :
    r.source ∈ (NodeStage.ofDeclared (declared blocks)).graph.ids := by
  rcases h.source_eq_or_leads with hsource | hleads
  · exact hsource ▸ h.mem_ids
  · exact (NodeStage.wellFormed_ofDeclared _).target_mem hleads

end Holds

/-- Every reference that the definitions hold has its node. -/
theorem source_mem_ids_of_held {blocks : List (String × SchemaBlock)} {r : Reference}
    (hr : r ∈ heldReferences blocks) :
    r.source ∈ (NodeStage.ofDeclared (declared blocks)).graph.ids := by
  obtain ⟨id, hid⟩ := mem_references_declared.mp (references_declared blocks ▸ hr)
  exact hid.source_mem_ids

end CsdlAudit
