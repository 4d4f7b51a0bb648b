import Mathlib.Data.List.Perm.Basic
import CsdlAudit.Proofs.Graph.Accounts
import CsdlAudit.Proofs.Graph.OwnNames
import CsdlAudit.Proofs.Graph.Suggestion

/-!
# Files in another order

A graph is built block by block, and at three places the order of the blocks can show: the last
declaration of a short name wins, the first declaration of an id makes its node, and only the
declaration that makes the node of an operation is found by the operation's name. The first does not
matter if no short name is given to two namespaces, and the second not if declarations of one id
agree on the kind. For the third the id has to tell the name: it ends at the bracket, and there is
one in front of it only if a name or a namespace has one.

So in *unambiguous* blocks (`Unambiguous`) whatever a reference means is the same in any order, and
graphs of the same blocks have the same nodes, edges, self references, unresolved references and
failures (`ReferenceGraph.alike_build`). A bracket in a namespace is enough to make the order show:
see `bracketed`.
-/

namespace CsdlAudit

/-! ## Short names -/

namespace Aliases

/-- **No short name stands for two namespaces.** -/
def Agree (as : Aliases) : Prop := ∀ a ∈ as, ∀ b ∈ as, a.1 = b.1 → a.2 = b.2

instance (as : Aliases) : Decidable as.Agree :=
  inferInstanceAs (Decidable (∀ a ∈ as, ∀ b ∈ as, a.1 = b.1 → a.2 = b.2))

variable {as bs : Aliases}

theorem get?_eq_some_iff (h : as.Agree) {name namespaceName : String} :
    as.get? name = some namespaceName ↔ (name, namespaceName) ∈ as := by
  refine ⟨mem_of_get?_eq_some, fun hmem => ?_⟩
  obtain ⟨m, hm⟩ := exists_get?_of_mem hmem
  have hsame : m = namespaceName := h _ (mem_of_get?_eq_some hm) _ hmem rfl
  rw [hm, hsame]

/-- Short names that agree may be declared in any order. -/
theorem get?_eq_of_perm (h : as.Agree) (hperm : as.Perm bs) (name : String) :
    as.get? name = bs.get? name := by
  have h' : bs.Agree := fun a ha b hb => h a (hperm.mem_iff.mpr ha) b (hperm.mem_iff.mpr hb)
  refine Option.ext fun namespaceName => ?_
  rw [get?_eq_some_iff h, get?_eq_some_iff h', hperm.mem_iff]

end Aliases

/-- Reading a reference asks the short names for one name. -/
theorem TypeReader.resolve_congr {as bs : Aliases} (h : ∀ name, as.get? name = bs.get? name)
    (reader : TypeReader) (reference namespaceName : String) :
    reader.resolve reference namespaceName as = reader.resolve reference namespaceName bs := by
  simp only [resolve, qualify, h]

/-! ## Operations -/

namespace Declared

/-- **Operations are told by their kind**, and the id of one begins with its name and a bracket. -/
def Marked : Declared → Prop
  | .operation name n =>
    (n.kind = .action ∨ n.kind = .function) ∧ ∃ inner, n.id = name ++ "(" ++ inner
  | .element n | .part _ n => n.kind ≠ .action ∧ n.kind ≠ .function
  | .reference _ => True

/-- All of the declarations are marked. -/
def AllMarked (ds : List Declared) : Prop := ∀ d ∈ ds, d.Marked

section

variable {s : Scope} {d : Declared} {ds es : List Declared} {kind : NodeKind}

@[simp] theorem allMarked_nil : AllMarked [] := fun _ h => absurd h List.not_mem_nil

@[simp] theorem allMarked_cons : AllMarked (d :: ds) ↔ d.Marked ∧ AllMarked ds :=
  List.forall_mem_cons

@[simp] theorem allMarked_append : AllMarked (ds ++ es) ↔ AllMarked ds ∧ AllMarked es :=
  List.forall_mem_append

@[simp] theorem marked_element {id : String} :
    (s.element id kind).Marked ↔ kind ≠ .action ∧ kind ≠ .function := Iff.rfl

@[simp] theorem marked_reference {source : String} {target : ReferenceTarget} {edge : EdgeKind} :
    (s.reference source target edge).Marked := trivial

@[simp] theorem marked_operation {o : Operation} :
    (Declared.operation (s.idOf o.name) (s.node (s.idOf o.signature) kind none)).Marked ↔
      kind = .action ∨ kind = .function := by
  refine and_iff_left ⟨Text.join "," (o.parameters.map (·.typeName)) ++ ")", ?_⟩
  simp only [Scope.node, Scope.idOf, Operation.signature, String.append_assoc]

theorem allMarked_parts {α : Type} {l : List α} {owner : String} {segment : α → String}
    {target : α → ReferenceTarget} {edge : EdgeKind} (h : kind ≠ .action ∧ kind ≠ .function) :
    AllMarked (l.flatMap fun a => s.part owner (segment a) kind (target a) edge) := by
  intro d hd
  obtain ⟨a, -, hd⟩ := List.mem_flatMap.mp hd
  rcases List.mem_cons.mp hd with rfl | hd
  · exact h
  · rw [List.mem_singleton.mp hd]
    exact marked_reference

theorem allMarked_references {l : List String} {source : String}
    {target : String → ReferenceTarget} {edge : EdgeKind} :
    AllMarked (l.map fun a => s.reference source (target a) edge) := by
  intro d hd
  obtain ⟨a, -, rfl⟩ := List.mem_map.mp hd
  exact marked_reference

end

/-- **A block marks its operations**, and marks nothing else as one. -/
theorem allMarked_declare (s : Scope) (d : Definition) : AllMarked (s.declare d) := by
  cases d <;>
    simp [Scope.declare, Scope.structured, Scope.typeDefinition, Scope.operation, Scope.term,
      Scope.container, allMarked_parts, allMarked_references]

/-- An operation is declared for an action or a function. -/
theorem operation_mem_declare {s : Scope} {d : Definition} {name : String} {n : Node}
    (h : .operation name n ∈ s.declare d) :
    ∃ o, (d = .action o ∨ d = .function o) ∧ name = s.idOf o.name := by
  cases d with
  | action o =>
    have hfirst : name = s.idOf o.name ∧ n = s.node (s.idOf o.signature) .action none := by
      simpa [Scope.declare, Scope.operation, Scope.part, Scope.reference] using h
    exact ⟨o, Or.inl rfl, hfirst.1⟩
  | function o =>
    have hfirst : name = s.idOf o.name ∧ n = s.node (s.idOf o.signature) .function none := by
      simpa [Scope.declare, Scope.operation, Scope.part, Scope.reference] using h
    exact ⟨o, Or.inr rfl, hfirst.1⟩
  | entityType | complexType | enumType | typeDefinition | term | entityContainer | entitySet |
    singleton | actionImport | functionImport =>
    simp [Scope.declare, Scope.structured, Scope.typeDefinition, Scope.term, Scope.container,
      Scope.element, Scope.part, Scope.reference] at h

theorem operationId?_eq_some {name id : String} {d : Declared} (h : d.operationId? name = some id) :
    ∃ n, d = .operation name n ∧ n.id = id := by
  cases d with
  | operation plainId n =>
    obtain ⟨rfl, hid⟩ := Option.ite_none_right_eq_some.mp h
    exact ⟨n, rfl, Option.some.inj hid⟩
  | element | part | reference => exact absurd h (by simp [operationId?])

end Declared

/-! ## Blocks whose order does not show -/

/-- The nodes that blocks declare, one for each declaration. -/
def declaredNodes (blocks : List (String × SchemaBlock)) : List Node :=
  (declared blocks).filterMap Declared.node?

/-- **No id is declared with two kinds.** -/
def KindsAgree (blocks : List (String × SchemaBlock)) : Prop :=
  ∀ n ∈ declaredNodes blocks, ∀ m ∈ declaredNodes blocks, n.id = m.id → n.kind = m.kind

instance (blocks : List (String × SchemaBlock)) : Decidable (KindsAgree blocks) :=
  inferInstanceAs (Decidable
    (∀ n ∈ declaredNodes blocks, ∀ m ∈ declaredNodes blocks, n.id = m.id → n.kind = m.kind))

/-- **The blocks declare nothing in two ways.** -/
structure Unambiguous (blocks : List (String × SchemaBlock)) : Prop where
  /-- No short name stands for two namespaces. -/
  aliases : (declaredAliases blocks).Agree
  /-- No id is declared with two kinds. -/
  kinds : KindsAgree blocks
  /-- No qualified name of an operation has a bracket. -/
  operations : ∀ e ∈ blocks, ∀ namespaceName ∈ e.2.ownNamespace?,
    ∀ o ∈ e.2.actions ++ e.2.functions, '(' ∉ (namespaceName ++ "." ++ o.name).toList

variable {blocks blocks' : List (String × SchemaBlock)}

theorem declared_perm (h : blocks.Perm blocks') : (declared blocks).Perm (declared blocks') :=
  h.flatMap_right _

theorem declaredAliases_perm (h : blocks.Perm blocks') :
    (declaredAliases blocks).Perm (declaredAliases blocks') :=
  h.filterMap _

theorem heldReferences_perm (h : blocks.Perm blocks') :
    (heldReferences blocks).Perm (heldReferences blocks') :=
  h.flatMap_right _

/-- Every declaration is marked. -/
theorem marked_of_mem {d : Declared} (h : d ∈ declared blocks) : d.Marked := by
  obtain ⟨e, he, s, hs, definition, hdefinition, h⟩ := exists_declare_of_mem h
  exact Declared.allMarked_declare s definition d h

namespace Unambiguous

theorem of_perm (h : Unambiguous blocks) (hperm : blocks.Perm blocks') : Unambiguous blocks' where
  aliases := by
    have haliases := declaredAliases_perm hperm
    exact fun a ha b hb => h.aliases a (haliases.mem_iff.mpr ha) b (haliases.mem_iff.mpr hb)
  kinds := by
    have hnodes := (declared_perm hperm).filterMap Declared.node?
    exact fun n hn m hm => h.kinds n (hnodes.mem_iff.mpr hn) m (hnodes.mem_iff.mpr hm)
  operations := fun e he => h.operations e (hperm.mem_iff.mpr he)

/-- The name of a declared operation has no bracket. -/
theorem bracket_notMem (h : Unambiguous blocks) {name : String} {n : Node}
    (hn : .operation name n ∈ declared blocks) : '(' ∉ name.toList := by
  obtain ⟨e, he, s, hs, d, hd, hn⟩ := exists_declare_of_mem hn
  obtain ⟨namespaceName, hown, rfl⟩ := Option.map_eq_some_iff.mp hs
  obtain ⟨o, ho, rfl⟩ := Declared.operation_mem_declare hn
  refine h.operations e he namespaceName hown o (List.mem_append.mpr ?_)
  rcases ho with rfl | rfl
  · exact Or.inl (by simpa [SchemaBlock.topLevel, SchemaBlock.ownDefinitions] using hd)
  · exact Or.inr (by simpa [SchemaBlock.topLevel, SchemaBlock.ownDefinitions] using hd)

theorem toList_bracketed (name inner : String) :
    (name ++ "(" ++ inner).toList = name.toList ++ '(' :: inner.toList := by
  rw [String.toList_append, String.toList_append, List.append_assoc]
  rfl

/-- **The id of an operation tells its name**: whatever else is declared with the id is an operation
of the same name. -/
theorem operation_of_id (h : Unambiguous blocks) {name : String} {n m : Node} {d : Declared}
    (hn : .operation name n ∈ declared blocks) (hd : d ∈ declared blocks) (hm : d.node? = some m)
    (hid : n.id = m.id) : d = .operation name m := by
  have hkind : n.kind = m.kind :=
    h.kinds n (List.mem_filterMap.mpr ⟨_, hn, rfl⟩) m (List.mem_filterMap.mpr ⟨_, hd, hm⟩) hid
  obtain ⟨hoperation, inner, hinner⟩ := marked_of_mem hn
  rw [hkind] at hoperation
  cases d with
  | element m' | part owner m' =>
    obtain rfl := Option.some.inj hm
    obtain ⟨haction, hfunction⟩ := marked_of_mem hd
    exact absurd hoperation (not_or.mpr ⟨haction, hfunction⟩)
  | operation name' m' =>
    obtain rfl := Option.some.inj hm
    obtain ⟨-, inner', hinner'⟩ := marked_of_mem hd
    -- the first bracket of the id is the one behind the name
    have hspelled := congrArg String.toList (hinner.symm.trans (hid.trans hinner'))
    rw [toList_bracketed, toList_bracketed] at hspelled
    have hname : name.toList = name'.toList :=
      Text.front_eq_of_append_cons (h.bracket_notMem hn) (h.bracket_notMem hd) hspelled
    rw [String.toList_injective hname]
  | reference r => exact absurd hm (Option.some_ne_none m).symm

end Unambiguous

/-! ## What references mean -/

section Meaning

variable {options : GraphOptions}

/-- **The operations of a name are all that have the name.** -/
theorem Unambiguous.mem_operationsNamed (h : Unambiguous blocks) {name id : String} :
    id ∈ operationsNamed (declared blocks) name ↔
      ∃ n, .operation name n ∈ declared blocks ∧ n.id = id := by
  rw [operationsNamed, List.mem_filterMap]
  constructor
  · rintro ⟨d, hd, hname⟩
    have hmem := (Declared.introducing_sublist [] (declared blocks)).subset hd
    obtain ⟨n, rfl, rfl⟩ := Declared.operationId?_eq_some hname
    exact ⟨n, hmem, rfl⟩
  · rintro ⟨n, hn, rfl⟩
    -- some declaration has made the node of the id
    have hid : n.id ∈ (NodeStage.ofDeclared (declared blocks)).graph.ids :=
      (NodeStage.mem_ids_declared blocks).mpr ⟨_, hn, n, rfl, rfl⟩
    rw [Graph.ids, NodeStage.nodes_ofDeclared] at hid
    obtain ⟨m, hm, hmid⟩ := List.mem_map.mp hid
    obtain ⟨d, hd, hnode⟩ := List.mem_filterMap.mp hm
    have hmem := (Declared.introducing_sublist [] (declared blocks)).subset hd
    refine ⟨d, hd, ?_⟩
    rw [h.operation_of_id hn hmem hnode hmid.symm, Declared.operationId?, if_pos rfl, hmid]

/-- An id is introduced once. -/
theorem nodup_operationsNamed (ds : List Declared) (name : String) :
    (operationsNamed ds name).Nodup := by
  have hids := (NodeStage.wellFormed_ofDeclared ds).nodup_ids
  rw [Graph.ids, NodeStage.nodes_ofDeclared, List.map_filterMap] at hids
  refine hids.sublist ?_
  unfold operationsNamed
  induction Declared.introducing [] ds with
  | nil => exact List.Sublist.refl _
  | cons d rest ih =>
    cases hd : d.operationId? name with
    | none =>
      rw [List.filterMap_cons_none hd]
      exact ih.trans ((List.sublist_cons_self d rest).filterMap _)
    | some id =>
      obtain ⟨n, rfl, rfl⟩ := Declared.operationId?_eq_some hd
      rw [List.filterMap_cons_some hd]
      exact ih.cons_cons n.id

theorem Unambiguous.operationsNamed_perm (h : Unambiguous blocks) (hperm : blocks.Perm blocks')
    (name : String) :
    (operationsNamed (declared blocks) name).Perm (operationsNamed (declared blocks') name) := by
  refine (List.perm_ext_iff_of_nodup (nodup_operationsNamed _ _) (nodup_operationsNamed _ _)).mpr
    fun id => ?_
  rw [h.mem_operationsNamed, (h.of_perm hperm).mem_operationsNamed]
  exact exists_congr fun n => and_congr_left fun _ => (declared_perm hperm).mem_iff

/-- Whatever the order of the blocks, their short names read a reference alike. -/
theorem Unambiguous.resolve_eq (h : Unambiguous blocks) (hperm : blocks.Perm blocks')
    (reader : TypeReader) (reference namespaceName : String) :
    reader.resolve reference namespaceName (declaredAliases blocks) =
      reader.resolve reference namespaceName (declaredAliases blocks') :=
  reader.resolve_congr (Aliases.get?_eq_of_perm h.aliases (declaredAliases_perm hperm)) _ _

/-- **A reference means the same in any order of the blocks.** -/
theorem Unambiguous.meantIds_perm (h : Unambiguous blocks) (hperm : blocks.Perm blocks')
    (r : Reference) : (r.meantIds options blocks).Perm (r.meantIds options blocks') := by
  unfold Reference.meantIds Reference.meant
  cases r.target with
  | node id => exact List.Perm.refl _
  | type reference =>
    dsimp only
    rw [h.resolve_eq hperm]
  | operation reference =>
    have hoperations := h.operationsNamed_perm hperm
    dsimp only
    rw [h.resolve_eq hperm]
    cases TypeReader.resolve ⟨options.primitiveStart⟩ reference r.namespaceName
      (declaredAliases blocks') with
    | error fault => exact List.Perm.refl _
    | ok referent =>
      cases referent with
      | primitive => exact List.Perm.refl _
      | element id =>
        have hnone : operationsNamed (declared blocks) id = [] ↔
            operationsNamed (declared blocks') id = [] := by
          rw [← List.length_eq_zero_iff, (hoperations id).length_eq, List.length_eq_zero_iff]
        simp only [Except.map, hnone]
        split
        · exact List.Perm.refl _
        · exact hoperations id

/-- A reference that cannot be read cannot be read in any order of the blocks. -/
theorem Unambiguous.failure?_eq (h : Unambiguous blocks) (hperm : blocks.Perm blocks')
    (r : Reference) : r.failure? options blocks = r.failure? options blocks' := by
  unfold Reference.failure? Reference.meant
  cases r.target with
  | node id => rfl
  | type reference =>
    dsimp only
    rw [h.resolve_eq hperm]
  | operation reference =>
    dsimp only
    rw [h.resolve_eq hperm]
    cases TypeReader.resolve ⟨options.primitiveStart⟩ reference r.namespaceName
      (declaredAliases blocks') with
    | error fault => rfl
    | ok referent => rfl

end Meaning

/-! ## The graph -/

namespace ReferenceGraph

/-- The ids with their kinds. -/
def kinds (g : ReferenceGraph) : List (String × NodeKind) := g.nodes.map fun n => (n.id, n.kind)

/-- **Two graphs say the same**, in whatever order. -/
structure Alike (g h : ReferenceGraph) : Prop where
  /-- They have the same ids with the same kinds. -/
  kinds : ∀ p, p ∈ g.kinds ↔ p ∈ h.kinds
  /-- They have the same edges. -/
  leads : ∀ a b, g.Leads a b ↔ h.Leads a b
  /-- The same ids refer to themselves. -/
  selfIds : ∀ a, a ∈ g.selfIds ↔ a ∈ h.selfIds
  /-- They have the same unresolved references, each as often. -/
  unresolved : g.unresolved.Perm h.unresolved
  /-- They have the same failures, each as often. -/
  failures : g.failures.Perm h.failures

/-- **An id has the kind with which it is declared.** -/
theorem mem_kinds_build (h : KindsAgree blocks) (options : GraphOptions)
    {p : String × NodeKind} : p ∈ (build options blocks).kinds ↔
      ∃ n ∈ declaredNodes blocks, (n.id, n.kind) = p := by
  have hsub : ∀ n ∈ (build options blocks).nodes, n ∈ declaredNodes blocks := by
    rw [nodes_build]
    exact ((Declared.introducing_sublist [] (declared blocks)).filterMap _).subset
  rw [kinds, List.mem_map]
  refine ⟨fun ⟨n, hn, hp⟩ => ⟨n, hsub n hn, hp⟩, ?_⟩
  rintro ⟨n, hn, rfl⟩
  -- the node of the id may come from another declaration, which agrees on the kind
  obtain ⟨d, hd, hnode⟩ := List.mem_filterMap.mp hn
  obtain ⟨m, hm, hid⟩ := List.mem_map.mp ((mem_ids_build options blocks).mpr ⟨d, hd, n, hnode, rfl⟩)
  exact ⟨m, hm, by rw [hid, h m (hsub m hm) n hn hid]⟩

/-- The elements that an id fits are told by the ids and kinds of the nodes. -/
theorem mem_scored_iff {g : ReferenceGraph} {target : String} {x : String × Int} :
    x ∈ g.scored target ↔ ∃ p ∈ g.kinds, p.2.isPart = false ∧
      (Similarity.score p.1 target).map (fun score => (p.1, score)) = some x := by
  constructor
  · intro hx
    obtain ⟨n, hn, hscore⟩ := List.mem_filterMap.mp hx
    obtain ⟨hn, hpart⟩ := List.mem_filter.mp hn
    exact ⟨(n.id, n.kind), List.mem_map_of_mem hn, by simpa using hpart, hscore⟩
  · rintro ⟨p, hp, hpart, hscore⟩
    obtain ⟨n, hn, rfl⟩ := List.mem_map.mp hp
    exact List.mem_filterMap.mpr ⟨n, List.mem_filter.mpr ⟨hn, by simpa using hpart⟩, hscore⟩

section Order

variable (options : GraphOptions) (hperm : blocks.Perm blocks')
include hperm

theorem mem_ids_build_of_perm (id : String) :
    id ∈ (build options blocks).ids ↔ id ∈ (build options blocks').ids := by
  rw [mem_ids_build, mem_ids_build]
  exact exists_congr fun d => and_congr_left fun _ => (declared_perm hperm).mem_iff

theorem hasNode_build_of_perm (id : String) :
    (build options blocks).hasNode id = (build options blocks').hasNode id :=
  Bool.eq_iff_iff.mpr
    (Graph.hasNode_iff.trans ((mem_ids_build_of_perm options hperm id).trans
      Graph.hasNode_iff.symm))

variable (h : Unambiguous blocks)
include h

theorem mem_kinds_build_of_perm (p : String × NodeKind) :
    p ∈ (build options blocks).kinds ↔ p ∈ (build options blocks').kinds := by
  rw [mem_kinds_build h.kinds, mem_kinds_build (h.of_perm hperm).kinds]
  exact exists_congr fun n =>
    and_congr_left fun _ => ((declared_perm hperm).filterMap Declared.node?).mem_iff

/-- What is suggested for an id does not depend on the order either. -/
theorem suggestion?_build_of_perm (target : String) :
    (build options blocks).suggestion? target = (build options blocks').suggestion? target := by
  refine Graph.suggestion?_eq_of_mem_iff fun x => ?_
  rw [mem_scored_iff, mem_scored_iff]
  exact exists_congr fun p => and_congr_left fun _ => mem_kinds_build_of_perm options hperm h p

end Order

/-- **Graphs of the same blocks say the same**, in whatever order the blocks come, if they declare
nothing in two ways. -/
theorem alike_build (options : GraphOptions) (h : Unambiguous blocks)
    (hperm : blocks.Perm blocks') : Alike (build options blocks) (build options blocks') := by
  have hreport : (build options blocks).report options.suggestSimilar =
      (build options blocks').report options.suggestSimilar := by
    funext p
    rw [report, report, suggestion?_build_of_perm options hperm h]
  have hheld := heldReferences_perm hperm
  have hmeant : ∀ r id, id ∈ Reference.meantIds options blocks r ↔
      id ∈ Reference.meantIds options blocks' r := fun r id => (h.meantIds_perm hperm r).mem_iff
  exact {
    kinds := mem_kinds_build_of_perm options hperm h
    leads := by
      intro a b
      rw [leads_build, leads_build, NodeStage.leads_declared, NodeStage.leads_declared]
      refine or_congr (exists_congr fun n => and_congr_left fun _ => (declared_perm hperm).mem_iff)
        (exists_congr fun r => and_congr hheld.mem_iff ?_)
      rw [hmeant, mem_ids_build_of_perm options hperm]
    selfIds := by
      intro a
      rw [mem_selfIds_build, mem_selfIds_build]
      exact exists_congr fun r => and_congr hheld.mem_iff (by rw [hmeant])
    unresolved := by
      rw [(accounts_build options blocks).unresolved, (accounts_build options blocks').unresolved]
      refine hheld.flatMap fun r _ => ?_
      simp only [hasNode_build_of_perm options hperm, hreport]
      exact ((h.meantIds_perm hperm r).filter _).map _
    failures := by
      rw [(accounts_build options blocks).failures, (accounts_build options blocks').failures,
        List.filterMap_congr fun r _ => h.failure?_eq hperm r]
      exact hheld.filterMap _ }

/-- Two files share a namespace and its short name. One of them has an import of a function that
each of them overloads, and a reference that leads nowhere. -/
def overloaded : List (String × SchemaBlock) :=
  [("a.xml",
    { SchemaBlock.bare (some "N") (some "S") with
      functions := [⟨"F", false, false, [⟨"p", "Edm.String", true⟩], none, []⟩]
      terms := [⟨"T", "S.Lost", none, [], []⟩] }),
    ("b.xml",
    { SchemaBlock.bare (some "N") (some "S") with
      functions := [⟨"F", false, false, [⟨"p", "Edm.Int32", true⟩], none, []⟩]
      entityContainer := some ⟨"C", none, [], [], [], [⟨"I", "S.F", none, false, []⟩], []⟩ })]

/-- **The files may come in either order**: the import leads to both functions, and the lost
reference is reported. -/
theorem alike_overloaded :
    Unambiguous overloaded ∧ overloaded.Perm overloaded.reverse ∧
      Alike (build .standard overloaded) (build .standard overloaded.reverse) ∧
      (build .standard overloaded).targets "N.C.functionImport.I" =
        ["N.F(Edm.String)", "N.F(Edm.Int32)"] ∧
      (build .standard overloaded).unresolved.map (·.target) = ["N.Lost"] := by
  have h : Unambiguous overloaded :=
    ⟨by decide +kernel, by decide +kernel, by decide +kernel⟩
  have hperm : overloaded.Perm overloaded.reverse := (List.reverse_perm _).symm
  exact ⟨h, hperm, alike_build .standard h hperm, by decide +kernel, by decide +kernel⟩

/-! ## A bracket in a namespace -/

/-- The function of a namespace with a bracket in it has the id of another function: the bracket of
the one stands in the namespace, and that of the other behind the name. -/
def bracketed : List (String × SchemaBlock) :=
  [("a.xml",
    { SchemaBlock.bare (some "A.B(Edm") none with
      functions := [⟨"C", false, false, [], none, []⟩] }),
    ("b.xml",
    { SchemaBlock.bare (some "A") none with
      functions := [⟨"B", false, false, [⟨"p", "Edm.C(", true⟩], none, []⟩]
      entityContainer := some ⟨"K", none, [], [], [], [⟨"I", "B", none, false, []⟩], []⟩ })]

/-- **The order of these files shows**, though no short name and no id stands for two things and no
operation has a bracket in its own name: the import of the second function leads to it only if its
file comes first. -/
theorem order_of_bracketed :
    (declaredAliases bracketed).Agree ∧ KindsAgree bracketed ∧
      (∀ e ∈ bracketed, ∀ o ∈ e.2.actions ++ e.2.functions, '(' ∉ o.name.toList) ∧
      bracketed.Perm bracketed.reverse ∧
      ¬Alike (build .standard bracketed) (build .standard bracketed.reverse) ∧
      (build .standard bracketed).unresolved.map (fun u => (u.source, u.target)) =
        [("A.K.functionImport.I", "A.B")] ∧
      (build .standard bracketed.reverse).unresolved = [] ∧
      (build .standard bracketed.reverse).hasEdge "A.K.functionImport.I" "A.B(Edm.C()" = true := by
  have hlength : (build .standard bracketed).unresolved.length ≠
      (build .standard bracketed.reverse).unresolved.length := by
    decide +kernel
  exact ⟨by decide +kernel, by decide +kernel, by decide +kernel, (List.reverse_perm _).symm,
    fun h => hlength h.unresolved.length_eq, by decide +kernel, by decide +kernel,
    by decide +kernel⟩

end ReferenceGraph

end CsdlAudit
