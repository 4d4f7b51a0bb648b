import CsdlAudit.Proofs.Graph.Members
import CsdlAudit.Proofs.Registry.Contents

/-!
# The registry and the graph know the same elements

A registry files the definitions of a block in one list; the graph of the same blocks has a node for
each top-level element and for each of its members. The two lists are made apart from each other.
They are compared here through the definitions: what a block defines is what stands at its top level
and what its container offers (`SchemaBlock.mem_definitions_iff`), and what a container offers are
its members in the graph (`EntityContainer.members_eq_filterMap`).

A record has a key of a namespace and a name, and the node of a top-level element has the key for
its id. The id of something that a container offers has the container in it as well, so the record
has to say from which container it came (`Registry.Offers`).
-/

namespace CsdlAudit

/-! ## What a container offers -/

theorem NodeKind.isMember_of_isOffered {k : NodeKind} (h : k.isOffered = true) :
    k.isMember = true := by
  rw [isMember, h, Bool.or_true]

/-- What a container offers, as a member of the container. -/
def Definition.offer? : Definition → Option Member
  | .entitySet e => some (.entitySet e.name)
  | .singleton e => some (.singleton e.name)
  | .actionImport i => some (.actionImport i.name)
  | .functionImport i => some (.functionImport i.name)
  | _ => none

theorem Definition.isSome_offer? (d : Definition) :
    d.offer?.isSome = d.kind.nodeKind.isOffered := by
  cases d <;> rfl

/-- A member that a container offers has the kind and the name of its definition. -/
theorem Definition.of_offer? {d : Definition} {m : Member} (h : d.offer? = some m) :
    m.kind = d.kind.nodeKind ∧ m.segment = m.word ++ "." ++ d.elementName := by
  cases d <;> cases h <;> exact ⟨rfl, rfl⟩

/-- **The members of a container are what it offers.** -/
theorem EntityContainer.members_eq_filterMap (c : EntityContainer) :
    c.members = c.definitions.filterMap Definition.offer? := by
  simp only [members, definitions, List.filterMap_cons, Definition.offer?, List.filterMap_append,
    List.filterMap_map, Function.comp_def, List.filterMap_eq_map']

/-- A member of the sort that containers offer belongs to a container. -/
theorem Definition.exists_container_of_isOffered {d : Definition} {m : Member}
    (hm : m ∈ d.members) (h : m.kind.isOffered = true) :
    ∃ c, d = .entityContainer c ∧ ∃ o ∈ c.definitions, o.offer? = some m := by
  have structured : ∀ {t : StructuredType}, m ∉ t.members := by
    rintro t hm
    simp only [StructuredType.members, List.mem_append, List.mem_map] at hm
    rcases hm with ((⟨_, _, rfl⟩ | ⟨_, _, rfl⟩) | ⟨_, _, rfl⟩) | ⟨_, _, rfl⟩ <;> cases h
  have operation : ∀ {o : Operation}, m ∉ o.members := by
    rintro o hm
    simp only [Operation.members, List.mem_append, List.mem_map] at hm
    rcases hm with ⟨_, _, rfl⟩ | ⟨_, _, rfl⟩ <;> cases h
  cases d with
  | entityContainer c =>
    refine ⟨c, rfl, List.mem_filterMap.mp ?_⟩
    rwa [← c.members_eq_filterMap]
  | entityType t | complexType t => exact absurd hm structured
  | action o | function o => exact absurd hm operation
  | _ => cases hm

/-- **The definitions of a block** are its top-level elements and what its container offers. -/
theorem SchemaBlock.mem_definitions_iff {b : SchemaBlock} {d : Definition} :
    d ∈ b.definitions ↔ d ∈ b.topLevel ∨
      d.offer?.isSome = true ∧ ∃ c, b.entityContainer = some c ∧ d ∈ c.definitions := by
  cases hc : b.entityContainer with
  | none => simp [definitions, topLevel, hc]
  | some c =>
    have hcontainer : d ∈ c.definitions ↔
        d = .entityContainer c ∨ d.offer?.isSome = true ∧ d ∈ c.definitions := by
      cases d <;> simp [EntityContainer.definitions, Definition.offer?]
    simp only [definitions, topLevel, hc, Option.map_some, Option.getD_some, Option.toList_some,
      List.map_singleton, List.mem_append, List.mem_singleton, Option.some.injEq, exists_eq_left',
      or_assoc]
    exact or_congr Iff.rfl hcontainer

namespace Registry

/-! ## Records and blocks -/

/-- **The records of a key** are the definitions of its name in the blocks of its namespace. -/
theorem mem_records_ofCalls {calls : List (String × Block)} {key : ElementKey}
    {a : ElementRecord} :
    a ∈ (ofCalls calls).records key ↔
      a.key = key ∧ a.object.definition.elementName = key.name ∧
        ∃ b, (a.sourceFile, b) ∈ (ofCalls calls).ingested ∧
          b.schema.ownNamespace? = some key.namespaceName ∧ a.object ∈ b.objects := by
  rw [(indexes_ofCalls calls).records, ingested_ofCalls]
  simp only [List.mem_flatMap, List.mem_map, List.mem_filter, callsOf, decide_eq_true_eq]
  constructor
  · rintro ⟨⟨file, b⟩, ⟨hcall, hown⟩, o, ⟨ho, hname⟩, rfl⟩
    exact ⟨rfl, hname, b, ⟨hcall, Option.isSome_iff_exists.mpr ⟨_, hown⟩⟩, hown, ho⟩
  · rintro ⟨hkey, hname, b, ⟨hcall, -⟩, hown, ho⟩
    exact ⟨(a.sourceFile, b), ⟨hcall, hown⟩, a.object, ⟨ho, hname⟩, by rw [← hkey]⟩

/-- The blocks of a registry declare what its ingested blocks have at their top level. -/
theorem declares_schemas_iff {r : Registry} {s : Scope} {d : Definition} :
    Declares r.schemas s d ↔ ∃ b, (s.file, b) ∈ r.ingested ∧
      b.schema.ownNamespace? = some s.namespaceName ∧ d ∈ b.schema.topLevel := by
  have hscope : ∀ e : String × SchemaBlock,
      s ∈ Scope.of? e ↔ e.2.ownNamespace? = some s.namespaceName ∧ e.1 = s.file := by
    rintro ⟨file, b⟩
    obtain ⟨namespaceName, file'⟩ := s
    cases h : b.ownNamespace? <;> simp [Scope.of?, h]
  simp only [Declares, schemas, List.mem_map, hscope]
  constructor
  · rintro ⟨-, ⟨⟨file, b⟩, hcall, rfl⟩, ⟨hown, rfl⟩, hd⟩
    exact ⟨b, hcall, hown, hd⟩
  · rintro ⟨b, hcall, hown, hd⟩
    exact ⟨_, ⟨(s.file, b), hcall, rfl⟩, ⟨hown, rfl⟩, hd⟩

/-- Each definition of a block is filed under its name. -/
theorem exists_record {calls : List (String × Block)} {b : Block} {file namespaceName : String}
    {d : Definition} (hcall : (file, b) ∈ (ofCalls calls).ingested)
    (hown : b.schema.ownNamespace? = some namespaceName) (hd : d ∈ b.schema.definitions) :
    ∃ o ∈ b.objects, o.definition = d ∧
      ⟨⟨namespaceName, d.elementName⟩, o, file⟩ ∈
        (ofCalls calls).records ⟨namespaceName, d.elementName⟩ := by
  rw [← b.objects_definitions] at hd
  obtain ⟨o, ho, rfl⟩ := List.mem_map.mp hd
  exact ⟨o, ho, rfl, mem_records_ofCalls.mpr ⟨rfl, rfl, b, hcall, hown, ho⟩⟩

/-! ## Both know the same elements -/

/-- **A record describes a node**: it has its kind, its namespace and its file. -/
structure Describes (a : ElementRecord) (n : Node) : Prop where
  /-- The kinds are the same. -/
  kind : a.kind.nodeKind = n.kind
  /-- The namespaces are the same. -/
  namespaceName : a.key.namespaceName = n.namespaceName
  /-- The files are the same. -/
  sourceFile : a.sourceFile = n.sourceFile

/-- **A record is of what a container offers**: the record is of the block of the container, and the
container offers its definition as the member. -/
structure Offers (r : Registry) (c : EntityContainer) (m : Member) (a : ElementRecord) : Prop where
  /-- The record is filed. -/
  filed : a ∈ r.records a.key
  /-- Its block has the container. -/
  block : ∃ b, (a.sourceFile, b) ∈ r.ingested ∧ a.object ∈ b.objects ∧
    b.schema.ownNamespace? = some a.key.namespaceName ∧ b.schema.entityContainer = some c
  /-- The container has the definition. -/
  mem : a.object.definition ∈ c.definitions
  /-- The definition is that of the member. -/
  offer : a.object.definition.offer? = some m

/-- The id of a container in the block of a record. -/
def containerId (a : ElementRecord) (c : EntityContainer) : String :=
  a.key.namespaceName ++ "." ++ c.name

/-- The id of what the container offers. -/
def offeredId (a : ElementRecord) (c : EntityContainer) (m : Member) : String :=
  containerId a c ++ "." ++ (m.word ++ "." ++ a.key.name)

/-- **A registry and a graph know the same elements.** -/
structure SameElements (r : Registry) (g : Graph) : Prop where
  /-- What is filed at the top level has a node, by its key. -/
  filed : ∀ key, ∀ a ∈ r.records key, a.kind.nodeKind.isOffered = false → key.display ∈ g.ids
  /-- A node without an owner is filed under a key with its id. -/
  topLevel : ∀ n ∈ g.nodes, n.parentId = none →
    ∃ key, key.display = n.id ∧ ∃ a ∈ r.records key, a.key = key ∧ Describes a n
  /-- Whatever else is filed, a container of its block offers it. -/
  exists_offers : ∀ key, ∀ a ∈ r.records key, a.kind.nodeKind.isOffered = true →
    a.key = key ∧ ∃ c m, r.Offers c m a
  /-- What a container offers has a node, and the container has an edge to it. -/
  owns : ∀ c m a, r.Offers c m a →
    offeredId a c m ∈ g.ids ∧ ⟨containerId a c, offeredId a c m, .contains⟩ ∈ g.edges
  /-- Unless the id is declared as something else, the node is of the kind that is filed. -/
  kind : ∀ c m a, r.Offers c m a →
    (∀ s d, Declares r.schemas s d → s.elementId d ≠ offeredId a c m ∧
      ∀ m' ∈ d.members, s.memberId d m' = offeredId a c m → m'.kind = a.kind.nodeKind) →
    ∃ n ∈ g.nodes, n.id = offeredId a c m ∧ n.kind = a.kind.nodeKind
  /-- A node of such a kind is that of a record. -/
  offered : ∀ n ∈ g.nodes, n.kind.isOffered = true → ∃ c m a, r.Offers c m a ∧ Describes a n ∧
    n.id = offeredId a c m ∧ n.parentId = some (containerId a c)

namespace Offers

variable {r : Registry} {c : EntityContainer} {m : Member} {a : ElementRecord}

/-- The blocks declare the container, with the member. -/
theorem declares (h : r.Offers c m a) :
    Declares r.schemas ⟨a.key.namespaceName, a.sourceFile⟩ (.entityContainer c) ∧
      m ∈ (Definition.entityContainer c).members := by
  obtain ⟨b, hcall, -, hown, hc⟩ := h.block
  refine ⟨declares_schemas_iff.mpr ⟨b, hcall, hown, ?_⟩, ?_⟩
  · simp [SchemaBlock.topLevel, hc]
  · rw [Definition.members, c.members_eq_filterMap]
    exact List.mem_filterMap.mpr ⟨_, h.mem, h.offer⟩

/-- The id of the member shows the key of the record. -/
theorem offeredId_eq {calls : List (String × Block)} (h : (ofCalls calls).Offers c m a) :
    offeredId a c m =
      Scope.memberId ⟨a.key.namespaceName, a.sourceFile⟩ (.entityContainer c) m := by
  have hname : a.object.definition.elementName = a.key.name := (mem_records_ofCalls.mp h.filed).2.1
  rw [offeredId, ← hname, ← (Definition.of_offer? h.offer).2]
  rfl

/-- What a container offers has a node, and the container has an edge to it. -/
theorem owns {calls : List (String × Block)} (h : (ofCalls calls).Offers c m a)
    (options : GraphOptions) :
    let g := ReferenceGraph.build options (ofCalls calls).schemas
    offeredId a c m ∈ g.ids ∧ ⟨containerId a c, offeredId a c m, .contains⟩ ∈ g.edges := by
  obtain ⟨hdeclares, hm⟩ := h.declares
  rw [h.offeredId_eq]
  exact ⟨(ReferenceGraph.mem_ids_build_iff options _).mpr ⟨_, _, hdeclares, Or.inr ⟨m, hm, rfl⟩⟩,
    (ReferenceGraph.contains_build_iff options _).mpr ⟨_, _, hdeclares, rfl, m, hm, rfl⟩⟩

end Offers

section

variable (options : GraphOptions) {calls : List (String × Block)}

/-- A record of a top-level element has a node. -/
theorem display_mem_ids {key : ElementKey} {a : ElementRecord}
    (ha : a ∈ (ofCalls calls).records key) (hkind : a.kind.nodeKind.isOffered = false) :
    key.display ∈ (ReferenceGraph.build options (ofCalls calls).schemas).ids := by
  obtain ⟨-, hname, b, hcall, hown, ho⟩ := mem_records_ofCalls.mp ha
  rcases SchemaBlock.mem_definitions_iff.mp (definition_mem_of_objects ho) with hd | ⟨hoffer, -⟩
  · have hid : key.display =
        Scope.elementId ⟨key.namespaceName, a.sourceFile⟩ a.object.definition := by
      rw [Scope.elementId, hname]
      rfl
    exact (ReferenceGraph.mem_ids_build_iff options _).mpr
      ⟨_, _, declares_schemas_iff.mpr ⟨b, hcall, hown, hd⟩, Or.inl hid⟩
  · exact absurd (a.object.definition.isSome_offer?.symm.trans hoffer)
      (ne_true_of_eq_false hkind)

/-- A node without an owner is that of a record. -/
theorem exists_record_of_topLevel {n : Node}
    (hn : n ∈ (ReferenceGraph.build options (ofCalls calls).schemas).nodes)
    (hparent : n.parentId = none) :
    ∃ key, key.display = n.id ∧
      ∃ a ∈ (ofCalls calls).records key, a.key = key ∧ Describes a n := by
  obtain ⟨s, d, h, rfl | ⟨m, -, rfl⟩⟩ := ReferenceGraph.exists_declaration options _ hn
  · obtain ⟨b, hcall, hown, hd⟩ := declares_schemas_iff.mp h
    obtain ⟨o, -, rfl, ha⟩ :=
      exists_record hcall hown (SchemaBlock.mem_definitions_iff.mpr (Or.inl hd))
    exact ⟨_, rfl, _, ha, rfl, rfl, rfl, rfl⟩
  · cases hparent

/-- Whatever is filed without being a top-level element, a container offers it. -/
theorem exists_offers {key : ElementKey} {a : ElementRecord}
    (ha : a ∈ (ofCalls calls).records key) (hkind : a.kind.nodeKind.isOffered = true) :
    a.key = key ∧ ∃ c m, (ofCalls calls).Offers c m a := by
  obtain ⟨rfl, hname, b, hcall, hown, ho⟩ := mem_records_ofCalls.mp ha
  refine ⟨rfl, ?_⟩
  rcases SchemaBlock.mem_definitions_iff.mp (definition_mem_of_objects ho) with
    hd | ⟨hoffer, c, hc, hmem⟩
  · have hmember := NodeKind.isMember_of_isOffered hkind
    exact absurd hmember (ne_true_of_eq_false (SchemaBlock.isMember_kind_of_topLevel hd))
  · obtain ⟨m, hm⟩ := Option.isSome_iff_exists.mp hoffer
    exact ⟨c, m, ha, ⟨b, hcall, ho, hown, hc⟩, hmem, hm⟩

/-- A node of the kind of what containers offer is that of a record. -/
theorem exists_offers_of_node {n : Node}
    (hn : n ∈ (ReferenceGraph.build options (ofCalls calls).schemas).nodes)
    (hkind : n.kind.isOffered = true) :
    ∃ c m a, (ofCalls calls).Offers c m a ∧ Describes a n ∧ n.id = offeredId a c m ∧
      n.parentId = some (containerId a c) := by
  obtain ⟨s, d, h, rfl | ⟨m, hm, rfl⟩⟩ := ReferenceGraph.exists_declaration options _ hn
  · have hmember := NodeKind.isMember_of_isOffered hkind
    exact absurd hmember (ne_true_of_eq_false h.isMember_kind)
  · obtain ⟨c, rfl, d, hd, hoffer⟩ := Definition.exists_container_of_isOffered hm hkind
    obtain ⟨b, hcall, hown, hc⟩ := declares_schemas_iff.mp h
    have hc : b.schema.entityContainer = some c := by
      simpa [SchemaBlock.topLevel, SchemaBlock.ownDefinitions] using hc
    have hdefinition : d ∈ b.schema.definitions := SchemaBlock.mem_definitions_iff.mpr
      (Or.inr ⟨Option.isSome_iff_exists.mpr ⟨m, hoffer⟩, c, hc, hd⟩)
    obtain ⟨o, ho, rfl, ha⟩ := exists_record hcall hown hdefinition
    have hoffers : Offers _ c m ⟨⟨s.namespaceName, o.definition.elementName⟩, o, s.file⟩ :=
      ⟨ha, ⟨b, hcall, ho, hown, hc⟩, hd, hoffer⟩
    exact ⟨c, m, _, hoffers, ⟨(Definition.of_offer? hoffer).1.symm, rfl, rfl⟩,
      hoffers.offeredId_eq.symm, rfl⟩

end

/-- **After a sequence of calls, the registry and the graph of its blocks know the same
elements.** -/
theorem sameElements_build (options : GraphOptions) (calls : List (String × Block)) :
    SameElements (ofCalls calls)
      (ReferenceGraph.build options (ofCalls calls).schemas).toGraph where
  filed := fun _ _ ha => display_mem_ids options ha
  topLevel := fun _ hn => exists_record_of_topLevel options hn
  exists_offers := fun _ _ ha => exists_offers ha
  owns := fun _ _ _ h => h.owns options
  kind := fun _ _ _ h hothers =>
    ReferenceGraph.exists_node_of_declarations options _ (h.owns options).1 fun s d hd =>
      ⟨fun hid => absurd hid (hothers s d hd).1, (hothers s d hd).2⟩
  offered := fun _ hn => exists_offers_of_node options hn

end Registry

end CsdlAudit
