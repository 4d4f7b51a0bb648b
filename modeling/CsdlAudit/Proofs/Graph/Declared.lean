import Mathlib.Data.List.Basic
import CsdlAudit.Graph.Declared

/-!
# What the blocks declare, definition by definition

A block declares its top-level elements one after the other (`Scope.block_eq_flatMap`), and what it
declares for one of them is a node followed by the parts of that node and by references of the node
or its parts (`OwnedBy`). So an owner is always declared before its parts, by which the parts can be
joined to it as they come (`ownersFirst_declared`).

The references of a definition can be read off its text (`Definition.references`): its base, the
types of its properties and parameters, and so on, in a fixed order. The references that blocks
declare are these and no others (`references_declared`).
-/

namespace CsdlAudit

/-! ## Top-level elements -/

/-- The definitions of a block without what its container offers. -/
def SchemaBlock.topLevel (b : SchemaBlock) : List Definition :=
  b.ownDefinitions ++ b.entityContainer.toList.map .entityContainer

/-- What a block declares for one of its top-level elements. -/
def Scope.declare (s : Scope) : Definition → List Declared
  | .entityType t => s.structured .entityType t
  | .complexType t => s.structured .complexType t
  | .enumType t => [s.element (s.idOf t.name) .enumType]
  | .typeDefinition t => s.typeDefinition t
  | .action o => s.operation .action o
  | .function o => s.operation .function o
  | .term t => s.term t
  | .entityContainer c => s.container c
  | .entitySet _ | .singleton _ | .actionImport _ | .functionImport _ => []

theorem Scope.block_eq_flatMap (s : Scope) (b : SchemaBlock) :
    s.block b = b.topLevel.flatMap s.declare := by
  have henum : (b.enumTypes.map fun t => s.element (s.idOf t.name) .enumType) =
      b.enumTypes.flatMap fun t => [s.element (s.idOf t.name) .enumType] := by
    rw [← List.map_eq_flatMap]
  simp only [block, SchemaBlock.topLevel, SchemaBlock.ownDefinitions, List.flatMap_append,
    List.flatMap_map, henum]
  rfl

/-- **A block with its own namespace**, and the scope of its declarations. -/
def Scope.of? (e : String × SchemaBlock) : Option Scope :=
  e.2.ownNamespace?.map fun namespaceName => ⟨namespaceName, e.1⟩

theorem declared_eq_flatMap (blocks : List (String × SchemaBlock)) :
    declared blocks = blocks.flatMap fun e =>
      (Scope.of? e).toList.flatMap fun s => e.2.topLevel.flatMap s.declare := by
  rw [declared]
  congr 1
  funext e
  obtain ⟨file, b⟩ := e
  cases h : b.ownNamespace? with
  | none => simp [Scope.of?, h]
  | some namespaceName => simp [Scope.of?, h, Scope.block_eq_flatMap]

/-! ## A node with its parts -/

namespace Declared

/-- The node that is declared, if it is one. -/
def node? : Declared → Option Node
  | .element n | .operation _ n | .part _ n => some n
  | .reference _ => none

end Declared

theorem Scope.ne_partId (id segment : String) : id ≠ Scope.partId id segment := by
  intro h
  have := congrArg String.length h
  have hdot : ".".length = 1 := rfl
  simp only [partId, String.length_append, hdot] at this
  omega

/-- **Only parts of a node and references of it or of its parts** are declared. -/
structure Follows (id : String) (ds : List Declared) : Prop where
  /-- A node is a part of it, named after it. -/
  part : ∀ {d n}, d ∈ ds → d.node? = some n →
    d = .part id n ∧ ∃ segment, n.id = Scope.partId id segment
  /-- A reference is one of it or of a part. -/
  source : ∀ {r}, .reference r ∈ ds → r.source = id ∨ ∃ n, .part id n ∈ ds ∧ n.id = r.source

namespace Follows

variable {id : String} {ds es : List Declared}

theorem nil : Follows id [] where
  part := fun h => absurd h List.not_mem_nil
  source := fun h => absurd h List.not_mem_nil

theorem append (hd : Follows id ds) (he : Follows id es) : Follows id (ds ++ es) where
  part := fun h hn => (List.mem_append.mp h).elim (fun h => hd.part h hn) (fun h => he.part h hn)
  source := fun h => by
    rcases List.mem_append.mp h with h | h
    · exact (hd.source h).imp_right fun ⟨n, hn, e⟩ => ⟨n, List.mem_append_left es hn, e⟩
    · exact (he.source h).imp_right fun ⟨n, hn, e⟩ => ⟨n, List.mem_append_right ds hn, e⟩

theorem flatMap {α : Type} {l : List α} {f : α → List Declared} (h : ∀ x, Follows id (f x)) :
    Follows id (l.flatMap f) := by
  induction l with
  | nil => exact nil
  | cons x l ih =>
    rw [List.flatMap_cons]
    exact (h x).append ih

theorem ofPart (s : Scope) (id segment : String) (kind : NodeKind) (target : ReferenceTarget)
    (edge : EdgeKind) : Follows id (s.part id segment kind target edge) where
  part := fun {d n} h hn => by
    rcases List.mem_cons.mp h with rfl | h
    · obtain rfl := Option.some.inj hn
      exact ⟨rfl, segment, rfl⟩
    · obtain rfl := List.mem_singleton.mp h
      exact absurd hn (by simp [Declared.node?, Scope.reference])
  source := fun {r} h => by
    refine Or.inr ⟨_, List.mem_cons_self, ?_⟩
    rcases List.mem_cons.mp h with h | h
    · exact absurd h (by simp)
    · obtain rfl : r = _ := Declared.reference.inj (List.mem_singleton.mp h)
      rfl

theorem ofReference (s : Scope) (id : String) (target : ReferenceTarget) (edge : EdgeKind) :
    Follows id [s.reference id target edge] where
  part := fun {d n} h hn => by
    obtain rfl := List.mem_singleton.mp h
    exact absurd hn (by simp [Declared.node?, Scope.reference])
  source := fun {r} h => by
    obtain rfl : r = _ := Declared.reference.inj (List.mem_singleton.mp h)
    exact Or.inl rfl

end Follows

/-- **The declarations of one element**: its node, then its parts and references. -/
def OwnedBy (id : String) (ds : List Declared) : Prop :=
  ∃ first n rest, ds = first :: rest ∧ first.node? = some n ∧ n.id = id ∧
    (∀ owner m, first ≠ .part owner m) ∧ Follows id rest

theorem Scope.follows_references (s : Scope) (id : String) (l : List String)
    (f : String → ReferenceTarget) (edge : EdgeKind) :
    Follows id (l.map fun x => s.reference id (f x) edge) := by
  rw [List.map_eq_flatMap]
  exact Follows.flatMap fun x => Follows.ofReference s id (f x) edge

/-- **What a block declares for an element is owned by it.** -/
theorem Scope.ownedBy_declare {b : SchemaBlock} {d : Definition} (s : Scope)
    (hd : d ∈ b.topLevel) : OwnedBy (s.idOf d.elementName) (s.declare d) := by
  -- what follows the first node comes list by list, each of parts or of references
  have structured : ∀ kind t, OwnedBy (s.idOf t.name) (s.structured kind t) := fun kind t =>
    ⟨_, _, _, rfl, rfl, rfl, fun _ _ h => Declared.noConfusion h,
      (((Follows.flatMap fun _ => Follows.ofPart ..).append
        (Follows.flatMap fun _ => Follows.ofPart ..)).append
        (Follows.flatMap fun _ => Follows.ofPart ..)).append
        (Follows.flatMap fun _ => Follows.ofPart ..)⟩
  have operation : ∀ kind o, OwnedBy (s.idOf o.signature) (s.operation kind o) := fun kind o =>
    ⟨_, _, _, rfl, rfl, rfl, fun _ _ h => Declared.noConfusion h,
      (Follows.flatMap fun _ => Follows.ofPart ..).append
        (Follows.flatMap fun _ => Follows.ofPart ..)⟩
  cases d with
  | entityType t => exact structured .entityType t
  | complexType t => exact structured .complexType t
  | enumType t =>
    exact ⟨_, _, _, rfl, rfl, rfl, fun _ _ h => Declared.noConfusion h, Follows.nil⟩
  | typeDefinition t =>
    exact ⟨_, _, _, rfl, rfl, rfl, fun _ _ h => Declared.noConfusion h, Follows.ofReference ..⟩
  | action o => exact operation .action o
  | function o => exact operation .function o
  | term t =>
    refine ⟨_, _, _, rfl, rfl, rfl, fun _ _ h => Declared.noConfusion h, ?_⟩
    exact (Follows.ofReference s _ (.type t.typeName) .termType).append
      (s.follows_references _ _ .type .baseType)
  | entityContainer c =>
    refine ⟨_, _, _, rfl, rfl, rfl, fun _ _ h => Declared.noConfusion h, ?_⟩
    exact ((((s.follows_references _ _ .type .baseType).append
      (Follows.flatMap fun _ => Follows.ofPart ..)).append
      (Follows.flatMap fun _ => Follows.ofPart ..)).append
      (Follows.flatMap fun _ => Follows.ofPart ..)).append
      (Follows.flatMap fun _ => Follows.ofPart ..)
  | entitySet | singleton | actionImport | functionImport =>
    simp [SchemaBlock.topLevel, SchemaBlock.ownDefinitions] at hd

/-! ## References, as the text has them -/

/-- A reference in a scope. -/
def Scope.refer (s : Scope) (source : String) (target : ReferenceTarget) (kind : EdgeKind) :
    Reference :=
  ⟨source, target, kind, s.namespaceName, s.file⟩

/-- The references of a structured type: its base, the types of its properties and of its navigation
properties, and for each key path the property with which the path starts. -/
def StructuredType.references (s : Scope) (t : StructuredType) : List Reference :=
  let id := s.idOf t.name
  (t.baseType.toList.map fun base =>
      s.refer (Scope.partId id "baseType") (.type base) .baseType) ++
    (t.properties.map fun p =>
      s.refer (Scope.partId id ("property." ++ p.name)) (.type p.typeName) .property) ++
    (t.navigationProperties.map fun n =>
      s.refer (Scope.partId id ("navigation." ++ n.name)) (.type n.typeName) .navigation) ++
    t.key.map fun path =>
      s.refer (Scope.partId id ("key." ++ path))
        (.node (Scope.partId id ("property." ++ Text.beforeFirst '/' path))) .key

/-- The references of an operation: the types of its parameters and of its result. -/
def Operation.references (s : Scope) (o : Operation) : List Reference :=
  let id := s.idOf o.signature
  (o.parameters.map fun p =>
      s.refer (Scope.partId id ("parameter." ++ p.name)) (.type p.typeName) .parameter) ++
    o.returnType.toList.map fun r =>
      s.refer (Scope.partId id "returnType") (.type r.typeName) .returnType

/-- The references of a container: the container that it extends, the types of its entity sets and
singletons, and the operations of its imports. -/
def EntityContainer.references (s : Scope) (c : EntityContainer) : List Reference :=
  let id := s.idOf c.name
  (c.baseContainer.toList.map fun base => s.refer id (.type base) .baseType) ++
    (c.entitySets.map fun e =>
      s.refer (Scope.partId id ("entitySet." ++ e.name)) (.type e.entityType) .entitySetType) ++
    (c.singletons.map fun e =>
      s.refer (Scope.partId id ("singleton." ++ e.name)) (.type e.typeName) .entitySetType) ++
    (c.actionImports.map fun i =>
      s.refer (Scope.partId id ("actionImport." ++ i.name)) (.operation i.action) .importTarget) ++
    c.functionImports.map fun i =>
      s.refer (Scope.partId id ("functionImport." ++ i.name)) (.operation i.function) .importTarget

/-- **The references of a definition**, in their order. -/
def Definition.references (s : Scope) : Definition → List Reference
  | .entityType t | .complexType t => t.references s
  | .typeDefinition t => [s.refer (s.idOf t.name) (.type t.underlyingType) .baseType]
  | .action o | .function o => o.references s
  | .term t =>
    s.refer (s.idOf t.name) (.type t.typeName) .termType ::
      t.baseTerm.toList.map fun base => s.refer (s.idOf t.name) (.type base) .baseType
  | .entityContainer c => c.references s
  | .enumType _ | .entitySet _ | .singleton _ | .actionImport _ | .functionImport _ => []

/-- **The references that the definitions of blocks hold**, in the order of the blocks. -/
def heldReferences (blocks : List (String × SchemaBlock)) : List Reference :=
  blocks.flatMap fun e =>
    (Scope.of? e).toList.flatMap fun s => e.2.topLevel.flatMap fun d => d.references s

section

variable (s : Scope)

@[simp] theorem references_nil : references [] = [] := rfl

@[simp] theorem references_append (ds es : List Declared) :
    references (ds ++ es) = references ds ++ references es :=
  List.filterMap_append

@[simp] theorem references_flatMap {α : Type} (l : List α) (f : α → List Declared) :
    references (l.flatMap f) = l.flatMap fun x => references (f x) :=
  List.filterMap_flatMap

@[simp] theorem references_element (id : String) (kind : NodeKind) (ds : List Declared) :
    references (s.element id kind :: ds) = references ds := rfl

@[simp] theorem references_operation (plainId : String) (n : Node) (ds : List Declared) :
    references (.operation plainId n :: ds) = references ds := rfl

@[simp] theorem references_reference (source : String) (target : ReferenceTarget) (kind : EdgeKind)
    (ds : List Declared) : references (s.reference source target kind :: ds) =
      s.refer source target kind :: references ds := rfl

@[simp] theorem references_part (owner segment : String) (kind : NodeKind)
    (target : ReferenceTarget) (edge : EdgeKind) :
    references (s.part owner segment kind target edge) =
      [s.refer (Scope.partId owner segment) target edge] := rfl

@[simp] theorem references_map_reference {α : Type} (l : List α) (source : String)
    (f : α → ReferenceTarget) (kind : EdgeKind) :
    references (l.map fun x => s.reference source (f x) kind) =
      l.map fun x => s.refer source (f x) kind := by
  induction l with
  | nil => rfl
  | cons x l ih =>
    rw [List.map_cons, references_reference, ih]
    rfl

theorem references_declare (d : Definition) : references (s.declare d) = d.references s := by
  cases d <;>
    simp [Scope.declare, Definition.references, Scope.structured, StructuredType.references,
      Scope.typeDefinition, Scope.operation, Operation.references, Scope.term, Scope.container,
      EntityContainer.references, ← List.map_eq_flatMap]

end

/-- **The references that blocks declare are those that their definitions hold.** -/
theorem references_declared (blocks : List (String × SchemaBlock)) :
    references (declared blocks) = heldReferences blocks := by
  simp only [declared_eq_flatMap, references_flatMap, references_declare, heldReferences]

end CsdlAudit
