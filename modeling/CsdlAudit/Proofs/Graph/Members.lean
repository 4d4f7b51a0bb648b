import CsdlAudit.Proofs.Graph.Build

/-!
# Elements and their members

What a block declares for a top-level element is a node of the element and one for each of its
members: the base of a type, its properties and keys, the parameters of an operation, what a
container offers. The members are read off the definition (`Definition.members`), and the id of a
member is that of the element with a word for the sort of member and the name of the member behind
it (`Scope.memberId`).

So the nodes of a finished graph are those of elements and members, each of them has a node unless
another declaration of its id came first, and the edges from an owner to what it contains are those
from elements to their members (`ReferenceGraph.exists_declaration`,
`ReferenceGraph.mem_ids_build_iff`, `ReferenceGraph.contains_build_iff`).
-/

namespace CsdlAudit

/-! ## Kinds -/

/-- The kind of node that an element has. -/
def ElementKind.nodeKind : ElementKind → NodeKind
  | .entityType => .entityType
  | .complexType => .complexType
  | .enumType => .enumType
  | .typeDefinition => .typeDefinition
  | .entityContainer => .entityContainer
  | .entitySet => .entitySet
  | .singleton => .singleton
  | .actionImport => .actionImport
  | .functionImport => .functionImport
  | .action => .action
  | .function => .function
  | .term => .term

/-- Whether nodes of the kind are what a container offers. -/
def NodeKind.isOffered : NodeKind → Bool
  | .entitySet | .singleton | .actionImport | .functionImport => true
  | _ => false

/-- Whether nodes of the kind belong to an element. -/
def NodeKind.isMember (k : NodeKind) : Bool := k.isPart || k.isOffered

/-! ## The members of a definition -/

/-- **A member of an element.** -/
inductive Member where
  /-- The base of a type. -/
  | base
  /-- A property. -/
  | property (name : String)
  /-- A navigation property. -/
  | navigation (name : String)
  /-- A part of a key. -/
  | key (path : String)
  /-- A parameter. -/
  | parameter (name : String)
  /-- The result of an operation. -/
  | result
  /-- An entity set. -/
  | entitySet (name : String)
  /-- A singleton. -/
  | singleton (name : String)
  /-- An action import. -/
  | actionImport (name : String)
  /-- A function import. -/
  | functionImport (name : String)
deriving DecidableEq, Repr

namespace Member

/-- The kind of node that the member has. -/
def kind : Member → NodeKind
  | .base => .baseType
  | .property _ => .property
  | .navigation _ => .navigationProperty
  | .key _ => .key
  | .parameter _ => .parameter
  | .result => .returnType
  | .entitySet _ => .entitySet
  | .singleton _ => .singleton
  | .actionImport _ => .actionImport
  | .functionImport _ => .functionImport

/-- The word for members of the sort. -/
def word : Member → String
  | .base => "baseType"
  | .property _ => "property"
  | .navigation _ => "navigation"
  | .key _ => "key"
  | .parameter _ => "parameter"
  | .result => "returnType"
  | .entitySet _ => "entitySet"
  | .singleton _ => "singleton"
  | .actionImport _ => "actionImport"
  | .functionImport _ => "functionImport"

/-- The name of the member, if members of the sort have one. -/
def name? : Member → Option String
  | .base | .result => none
  | .property name | .navigation name | .key name | .parameter name | .entitySet name
  | .singleton name | .actionImport name | .functionImport name => some name

/-- What stands behind the id of the owner in the id of the member. -/
def segment (m : Member) : String :=
  match m.name? with
  | none => m.word
  | some name => m.word ++ "." ++ name

theorem isMember_kind (m : Member) : m.kind.isMember = true := by
  cases m <;> rfl

theorem segment_ne_empty (m : Member) : m.segment ≠ "" := by
  intro h
  have hlength := congrArg String.length h
  cases m <;> simp [segment, name?, word] at hlength

end Member

/-- The members of a structured type. -/
def StructuredType.members (t : StructuredType) : List Member :=
  (t.baseType.toList.map fun _ => Member.base) ++
    (t.properties.map fun p => Member.property p.name) ++
    (t.navigationProperties.map fun n => Member.navigation n.name) ++ t.key.map Member.key

/-- The members of an operation. -/
def Operation.members (o : Operation) : List Member :=
  (o.parameters.map fun p => Member.parameter p.name) ++
    o.returnType.toList.map fun _ => Member.result

/-- What a container offers, as its members. -/
def EntityContainer.members (c : EntityContainer) : List Member :=
  (c.entitySets.map fun e => Member.entitySet e.name) ++
    (c.singletons.map fun e => Member.singleton e.name) ++
    (c.actionImports.map fun i => Member.actionImport i.name) ++
    c.functionImports.map fun i => Member.functionImport i.name

/-- **The members of a definition**, in their order. -/
def Definition.members : Definition → List Member
  | .entityType t | .complexType t => t.members
  | .action o | .function o => o.members
  | .entityContainer c => c.members
  | .enumType _ | .typeDefinition _ | .term _ | .entitySet _ | .singleton _ | .actionImport _
  | .functionImport _ => []

namespace Scope

variable (s : Scope) (d : Definition) (m : Member)

/-- The id of a top-level element. -/
def elementId : String := s.idOf d.elementName

/-- The node of a top-level element. -/
def elementNode : Node := s.node (s.elementId d) d.kind.nodeKind none

/-- The id of a member. -/
def memberId : String := partId (s.elementId d) m.segment

/-- The node of a member. -/
def memberNode : Node := s.node (s.memberId d m) m.kind (some (s.elementId d))

/-- The declaration of a top-level element, without its members. -/
def declareElement : Declared :=
  match d with
  | .action o | .function o => .operation (s.idOf o.name) (s.elementNode d)
  | _ => .element (s.elementNode d)

/-- The declaration of a member. -/
def declareMember : Declared := .part (s.elementId d) (s.memberNode d m)

@[simp] theorem node?_declareElement :
    (s.declareElement d).node? = some (s.elementNode d) := by
  cases d <;> rfl

end Scope

/-! ## What a block declares for an element -/

namespace Declared

/-- Whether a node is declared. -/
def isNode (d : Declared) : Bool := d.node?.isSome

section

variable (s : Scope)

theorem filter_isNode_parts {α : Type} (l : List α) (owner : String) (segment : α → String)
    (kind : NodeKind) (target : α → ReferenceTarget) (edge : EdgeKind) :
    (l.flatMap fun a => s.part owner (segment a) kind (target a) edge).filter isNode =
      l.map fun a => .part owner (s.node (Scope.partId owner (segment a)) kind (some owner)) := by
  rw [List.filter_flatMap, List.map_eq_flatMap]
  rfl

theorem filter_isNode_references {α : Type} (l : List α) (source : String)
    (target : α → ReferenceTarget) (edge : EdgeKind) :
    (l.map fun a => s.reference source (target a) edge).filter isNode = [] := by
  rw [List.filter_map]
  exact List.map_eq_nil_iff.mpr (List.filter_eq_nil_iff.mpr fun _ _ h => by cases h)

/-- **What is declared for an element is the element, then its members** with references between
them. -/
theorem filter_isNode_declare {d : Definition} (h : d.kind.nodeKind.isMember = false) :
    (s.declare d).filter isNode = s.declareElement d :: d.members.map (s.declareMember d) := by
  have isNode_element : ∀ id kind ds, (s.element id kind :: ds).filter isNode =
      s.element id kind :: ds.filter isNode := fun _ _ _ => rfl
  have isNode_operation : ∀ name n ds, (Declared.operation name n :: ds).filter isNode =
      .operation name n :: ds.filter isNode := fun _ _ _ => rfl
  have isNode_reference : ∀ source target edge ds,
      (s.reference source target edge :: ds).filter isNode = ds.filter isNode :=
    fun _ _ _ _ => rfl
  cases d with
  | entityType t | complexType t =>
    simp only [Scope.declare, Scope.structured, isNode_element, List.filter_append,
      filter_isNode_parts, Definition.members, StructuredType.members, List.map_append,
      List.map_map]
    rfl
  | enumType t => rfl
  | typeDefinition t => rfl
  | action o | function o =>
    simp only [Scope.declare, Scope.operation, isNode_operation, List.filter_append,
      filter_isNode_parts, Definition.members, Operation.members, List.map_append, List.map_map]
    rfl
  | term t =>
    simp only [Scope.declare, Scope.term, isNode_element, isNode_reference,
      filter_isNode_references]
    rfl
  | entityContainer c =>
    simp only [Scope.declare, Scope.container, isNode_element, List.filter_append,
      filter_isNode_references, filter_isNode_parts, List.nil_append, Definition.members,
      EntityContainer.members, List.map_append, List.map_map]
    rfl
  | entitySet | singleton | actionImport | functionImport => cases h

end

end Declared

/-! ## What blocks declare -/

/-- **The blocks declare an element**: one of them has the definition at its top level, in the
scope. -/
def Declares (blocks : List (String × SchemaBlock)) (s : Scope) (d : Definition) : Prop :=
  ∃ e ∈ blocks, s ∈ Scope.of? e ∧ d ∈ e.2.topLevel

/-- What a container offers is no top-level element. -/
theorem SchemaBlock.isMember_kind_of_topLevel {b : SchemaBlock} {d : Definition}
    (h : d ∈ b.topLevel) : d.kind.nodeKind.isMember = false := by
  cases d with
  | entitySet | singleton | actionImport | functionImport =>
    simp [topLevel, ownDefinitions] at h
  | _ => rfl

section

variable {blocks : List (String × SchemaBlock)} {s : Scope} {d : Definition} {x : Declared}

theorem Declares.isMember_kind (h : Declares blocks s d) : d.kind.nodeKind.isMember = false :=
  let ⟨_, _, _, hd⟩ := h
  SchemaBlock.isMember_kind_of_topLevel hd

theorem mem_declared_iff :
    x ∈ declared blocks ↔ ∃ s d, Declares blocks s d ∧ x ∈ s.declare d := by
  constructor
  · intro h
    obtain ⟨e, he, s, hs, d, hd, hx⟩ := exists_declare_of_mem h
    exact ⟨s, d, ⟨e, he, hs, hd⟩, hx⟩
  · rintro ⟨s, d, ⟨e, he, hs, hd⟩, hx⟩
    exact mem_declared he hs hd hx

/-- **What is declared besides references**: elements and their members. -/
theorem mem_declared_iff_of_isNode (hx : x.isNode = true) : x ∈ declared blocks ↔
    ∃ s d, Declares blocks s d ∧
      (x = s.declareElement d ∨ ∃ m ∈ d.members, x = s.declareMember d m) := by
  rw [mem_declared_iff]
  refine exists_congr fun s => exists_congr fun d => and_congr_right fun h => ?_
  have hnodes := Declared.filter_isNode_declare s h.isMember_kind
  calc x ∈ s.declare d ↔ x ∈ (s.declare d).filter Declared.isNode :=
        (List.mem_filter.trans (and_iff_left hx)).symm
    _ ↔ x = s.declareElement d ∨ ∃ m ∈ d.members, x = s.declareMember d m := by
      rw [hnodes, List.mem_cons, List.mem_map]
      exact or_congr Iff.rfl (exists_congr fun m => and_congr_right fun _ => eq_comm)

/-- **The declared nodes** are those of elements and of members. -/
theorem exists_mem_declared_iff {n : Node} : (∃ x ∈ declared blocks, x.node? = some n) ↔
    ∃ s d, Declares blocks s d ∧ (n = s.elementNode d ∨ ∃ m ∈ d.members, n = s.memberNode d m) := by
  constructor
  · rintro ⟨x, hx, hn⟩
    obtain ⟨s, d, h, hx⟩ := (mem_declared_iff_of_isNode (by rw [Declared.isNode, hn]; rfl)).mp hx
    refine ⟨s, d, h, hx.imp ?_ ?_⟩
    · rintro rfl
      rw [s.node?_declareElement] at hn
      exact (Option.some.inj hn).symm
    · rintro ⟨m, hm, rfl⟩
      exact ⟨m, hm, (Option.some.inj hn).symm⟩
  · rintro ⟨s, d, h, rfl | ⟨m, hm, rfl⟩⟩
    · refine ⟨_, (mem_declared_iff_of_isNode ?_).mpr ⟨s, d, h, Or.inl rfl⟩,
        s.node?_declareElement d⟩
      rw [Declared.isNode, s.node?_declareElement]
      rfl
    · exact ⟨_, (mem_declared_iff_of_isNode rfl).mpr ⟨s, d, h, Or.inr ⟨m, hm, rfl⟩⟩, rfl⟩

/-- The declared parts are the members of elements. -/
theorem part_mem_declared_iff {owner : String} {n : Node} : .part owner n ∈ declared blocks ↔
    ∃ s d, Declares blocks s d ∧ owner = s.elementId d ∧ ∃ m ∈ d.members, n = s.memberNode d m := by
  rw [mem_declared_iff_of_isNode rfl]
  refine exists_congr fun s => exists_congr fun d => and_congr_right fun _ => ?_
  have hne : .part owner n ≠ s.declareElement d := by cases d <;> exact Declared.noConfusion
  rw [or_iff_right hne]
  constructor
  · rintro ⟨m, hm, hpart⟩
    obtain ⟨rfl, rfl⟩ := Declared.part.inj hpart
    exact ⟨rfl, m, hm, rfl⟩
  · rintro ⟨rfl, m, hm, rfl⟩
    exact ⟨m, hm, rfl⟩

end

/-- No reference is an edge from an owner to what it contains. -/
theorem Definition.kind_ne_contains (s : Scope) (d : Definition) :
    ∀ r ∈ d.references s, r.kind ≠ .contains := by
  cases d <;>
    simp only [references, StructuredType.references, Operation.references,
      EntityContainer.references, Scope.refer, List.forall_mem_append, List.forall_mem_map,
      List.forall_mem_cons, List.not_mem_nil, false_implies, ne_eq, reduceCtorEq, not_false_eq_true,
      implies_true, and_self]

/-! ## The finished graph -/

theorem Graph.edges_subset_addEdge (g : Graph) (e : Edge) : g.edges ⊆ (g.addEdge e).edges := by
  unfold addEdge
  split
  · split <;> exact List.Subset.refl _
  · split
    · exact List.Subset.refl _
    · exact List.subset_append_left _ _

namespace ReferenceGraph

theorem edges_subset_follow (options : GraphOptions) (operations : Index String String)
    (g : ReferenceGraph) (r : Reference) : g.edges ⊆ (g.follow options operations r).edges := by
  unfold follow
  split
  · exact List.Subset.refl _
  · next targets _ =>
    refine List.foldlRecOn (motive := fun h : ReferenceGraph => g.edges ⊆ h.edges) targets _
      (List.Subset.refl _) fun h hsub target _ => List.Subset.trans hsub ?_
    unfold link
    split
    · exact Graph.edges_subset_addEdge _ _
    · exact List.Subset.refl _

variable (options : GraphOptions) (blocks : List (String × SchemaBlock))

/-- The edges between owners and members stay. -/
theorem edges_subset_build :
    (NodeStage.ofDeclared (declared blocks)).graph.edges ⊆ (build options blocks).edges :=
  List.foldlRecOn
    (motive := fun h : ReferenceGraph =>
      (NodeStage.ofDeclared (declared blocks)).graph.edges ⊆ h.edges) _ _ (List.Subset.refl _)
    fun h hsub r _ => List.Subset.trans hsub (edges_subset_follow options _ h r)

/-- **A node is that of an element or of a member.** -/
theorem exists_declaration {n : Node} (h : n ∈ (build options blocks).nodes) :
    ∃ s d, Declares blocks s d ∧
      (n = s.elementNode d ∨ ∃ m ∈ d.members, n = s.memberNode d m) := by
  rw [nodes_build] at h
  obtain ⟨x, hx, hn⟩ := List.mem_filterMap.mp h
  exact exists_mem_declared_iff.mp
    ⟨x, (Declared.introducing_sublist [] (declared blocks)).subset hx, hn⟩

/-- **Every element and every member has a node**, and nothing else has. -/
theorem mem_ids_build_iff {id : String} : id ∈ (build options blocks).ids ↔
    ∃ s d, Declares blocks s d ∧
      (id = s.elementId d ∨ ∃ m ∈ d.members, id = s.memberId d m) := by
  rw [mem_ids_build]
  constructor
  · rintro ⟨x, hx, n, hn, rfl⟩
    obtain ⟨s, d, h, hnode⟩ := exists_mem_declared_iff.mp ⟨x, hx, hn⟩
    exact ⟨s, d, h, hnode.imp (congrArg Node.id) fun ⟨m, hm, e⟩ => ⟨m, hm, congrArg Node.id e⟩⟩
  · rintro ⟨s, d, h, rfl | ⟨m, hm, rfl⟩⟩
    · obtain ⟨x, hx, hn⟩ := exists_mem_declared_iff.mpr ⟨s, d, h, Or.inl rfl⟩
      exact ⟨x, hx, _, hn, rfl⟩
    · obtain ⟨x, hx, hn⟩ := exists_mem_declared_iff.mpr ⟨s, d, h, Or.inr ⟨m, hm, rfl⟩⟩
      exact ⟨x, hx, _, hn, rfl⟩

/-- **The node of an id has what all declarations of the id have.** -/
theorem exists_node_of_declarations {id : String} {P : Node → Prop}
    (hid : id ∈ (build options blocks).ids)
    (h : ∀ s d, Declares blocks s d → (s.elementId d = id → P (s.elementNode d)) ∧
      ∀ m ∈ d.members, s.memberId d m = id → P (s.memberNode d m)) :
    ∃ n ∈ (build options blocks).nodes, n.id = id ∧ P n := by
  obtain ⟨n, hn, rfl⟩ := List.mem_map.mp hid
  refine ⟨n, hn, rfl, ?_⟩
  obtain ⟨s, d, hd, rfl | ⟨m, hm, rfl⟩⟩ := exists_declaration options blocks hn
  · exact (h s d hd).1 rfl
  · exact (h s d hd).2 m hm rfl

/-- An edge joins an owner to its member, or is that of a reference. -/
theorem edges_build {e : Edge} (h : e ∈ (build options blocks).edges) :
    (∃ owner n, .part owner n ∈ declared blocks ∧ e = ⟨owner, n.id, .contains⟩) ∨
      ∃ r ∈ heldReferences blocks, e.kind = r.kind := by
  rcases (linked_build options blocks).edges h with h | ⟨p, hp, rfl⟩
  · exact Or.inl ((NodeStage.edges_foldl h).resolve_left List.not_mem_nil)
  · exact Or.inr ⟨p.1, ((mem_meanings options blocks).mp hp).1, rfl⟩

/-- **An owner contains its members**, and nothing else is contained. -/
theorem contains_build_iff {a b : String} : ⟨a, b, .contains⟩ ∈ (build options blocks).edges ↔
    ∃ s d, Declares blocks s d ∧ a = s.elementId d ∧ ∃ m ∈ d.members, b = s.memberId d m := by
  constructor
  · intro h
    rcases edges_build options blocks h with ⟨owner, n, hpart, he⟩ | ⟨r, hr, hkind⟩
    · obtain ⟨s, d, hd, rfl, m, hm, rfl⟩ := part_mem_declared_iff.mp hpart
      obtain ⟨rfl, rfl, -⟩ := Edge.mk.inj he
      exact ⟨s, d, hd, rfl, m, hm, rfl⟩
    · simp only [heldReferences, List.mem_flatMap] at hr
      obtain ⟨_, _, s, _, d, _, hr⟩ := hr
      exact absurd hkind.symm (d.kind_ne_contains s r hr)
  · rintro ⟨s, d, hd, rfl, m, hm, rfl⟩
    have hpart : .part (s.elementId d) (s.memberNode d m) ∈ declared blocks :=
      part_mem_declared_iff.mpr ⟨s, d, hd, rfl, m, hm, rfl⟩
    -- the edge was there before any reference was followed, and then only such edges were
    obtain ⟨e, he, hsource, htarget⟩ :=
      (NodeStage.leads_declared blocks).mpr ⟨_, hpart, rfl⟩
    obtain ⟨owner, n, -, rfl⟩ := (NodeStage.edges_foldl he).resolve_left List.not_mem_nil
    obtain rfl : owner = s.elementId d := hsource
    obtain htarget : n.id = s.memberId d m := htarget
    exact htarget ▸ edges_subset_build options blocks he

end ReferenceGraph

end CsdlAudit
