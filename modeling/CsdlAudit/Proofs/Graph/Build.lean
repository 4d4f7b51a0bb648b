import CsdlAudit.Proofs.Graph.Nodes

/-!
# What becomes of the references

Once all nodes are made, references are followed one after the other, and this makes no node. So
what a reference leads to does not depend on when it is followed, and one record says what the graph
has become after some references could not be read and others were followed to the ids that they
mean (`Linked`). Every step keeps it, so it holds of the finished graph with all references that the
definitions hold (`ReferenceGraph.linked_build`).
-/

namespace CsdlAudit

/-! ## What a reference means -/

namespace Reference

variable (options : GraphOptions) (blocks : List (String × SchemaBlock))

/-- **The ids that a reference means**: the node itself for a part of a key; the qualified name for
a type, none for a primitive one; for an import the operations that the name introduces, and the
name itself if there are none. -/
def meant (r : Reference) : Except TypeFault (List String) :=
  let read (reference : String) :=
    TypeReader.resolve ⟨options.primitiveStart⟩ reference r.namespaceName (declaredAliases blocks)
  match r.target with
  | .node id => .ok [id]
  | .type reference =>
    (read reference).map fun
      | .primitive => []
      | .element id => [id]
  | .operation reference =>
    (read reference).map fun
      | .primitive => []
      | .element id =>
        if operationsNamed (declared blocks) id = [] then [id]
        else operationsNamed (declared blocks) id

/-- The ids that a reference means, none if it cannot be read. -/
def meantIds (r : Reference) : List String :=
  match r.meant options blocks with
  | .ok ids => ids
  | .error _ => []

/-- The failure of a reference that cannot be read. -/
def failure? (r : Reference) : Option Failure :=
  match r.meant options blocks with
  | .ok _ => none
  | .error fault =>
    some ⟨r.source, r.target.text, fault.message r.target.text, r.sourceFile⟩

/-- **References lead to what they mean.** -/
theorem targets_eq_meant (r : Reference) :
    r.targets ⟨options.primitiveStart⟩ (declaredAliases blocks)
      (NodeStage.ofDeclared (declared blocks)).operations = r.meant options blocks := by
  unfold targets meant
  cases r.target with
  | node id => rfl
  | type reference =>
    dsimp only
    cases TypeReader.resolve ⟨options.primitiveStart⟩ reference r.namespaceName
      (declaredAliases blocks) with
    | error fault => rfl
    | ok referent => cases referent <;> rfl
  | operation reference =>
    dsimp only
    cases TypeReader.resolve ⟨options.primitiveStart⟩ reference r.namespaceName
      (declaredAliases blocks) with
    | error fault => rfl
    | ok referent =>
      cases referent with
      | primitive => rfl
      | element id =>
        simp only [Except.map, NodeStage.get_operations_ofDeclared,
          NodeStage.hasKey_operations_ofDeclared]
        cases operationsNamed (declared blocks) id with
        | nil => rfl
        | cons first rest => rfl

end Reference

/-! ## Following references -/

/-- The report of an id without a node. -/
def ReferenceGraph.report (g : ReferenceGraph) (suggest : Bool) (p : Reference × String) :
    Unresolved :=
  ⟨p.1.source, p.2, p.1.namespaceName, p.1.sourceFile,
    if suggest then g.suggestion? p.2 else none⟩

/-- **What a graph has become** after the failures `failed` and after the references of `followed`
were followed to their ids. -/
structure Linked (suggest : Bool) (before after : ReferenceGraph) (failed : List Failure)
    (followed : List (Reference × String)) : Prop where
  /-- No node is made. -/
  nodes : after.nodes = before.nodes
  /-- No short name of a namespace is lost. -/
  aliases : after.aliases = before.aliases
  /-- Each failure is reported. -/
  failures : after.failures = before.failures ++ failed
  /-- Each id without a node is reported. -/
  unresolved : after.unresolved = before.unresolved ++
    (followed.filter fun p => !before.hasNode p.2).map (before.report suggest)
  /-- Each id of another node is joined to the node of the reference. -/
  leads : ∀ {a b}, after.Leads a b ↔ before.Leads a b ∨
    ∃ p ∈ followed, a = p.1.source ∧ b = p.2 ∧ a ≠ b ∧ a ∈ before.ids ∧ b ∈ before.ids
  /-- The id of the node of the reference is a self reference. -/
  selfIds : ∀ {a}, a ∈ after.selfIds ↔ a ∈ before.selfIds ∨
    ∃ p ∈ followed, a = p.1.source ∧ a = p.2 ∧ a ∈ before.ids
  /-- An edge stands for what the reference says. -/
  edges : ∀ {e}, e ∈ after.edges → e ∈ before.edges ∨
    ∃ p ∈ followed, e = ⟨p.1.source, p.2, p.1.kind⟩
  /-- A self reference stands for what the reference says. -/
  selfReferences : ∀ {x}, x ∈ after.selfReferences → x ∈ before.selfReferences ∨
    ∃ p ∈ followed, x = (p.1.source, p.1.kind) ∧ p.1.source = p.2
  /-- The graph stays well formed. -/
  wellFormed : before.WellFormed → after.WellFormed

namespace Linked

variable {suggest : Bool} {before after : ReferenceGraph} {failed : List Failure}
  {followed : List (Reference × String)}

theorem refl (suggest : Bool) (g : ReferenceGraph) : Linked suggest g g [] [] where
  nodes := rfl
  aliases := rfl
  failures := (List.append_nil _).symm
  unresolved := (List.append_nil _).symm
  leads := by simp
  selfIds := by simp
  edges := Or.inl
  selfReferences := Or.inl
  wellFormed := fun h => h

/-- A reference cannot be read. -/
theorem fail (h : Linked suggest before after failed followed) (f : Failure) :
    Linked suggest before { after with failures := after.failures ++ [f] } (failed ++ [f])
      followed where
  nodes := h.nodes
  aliases := h.aliases
  failures := by
    show after.failures ++ [f] = _
    rw [h.failures, List.append_assoc]
  unresolved := h.unresolved
  leads := h.leads
  selfIds := h.selfIds
  edges := h.edges
  selfReferences := h.selfReferences
  wellFormed := h.wellFormed

theorem hasNode (h : Linked suggest before after failed followed) (id : String) :
    after.hasNode id = before.hasNode id := by
  rw [Graph.hasNode, Graph.node?, h.nodes]
  rfl

theorem mem_ids (h : Linked suggest before after failed followed) {id : String} :
    id ∈ after.ids ↔ id ∈ before.ids := by
  rw [Graph.ids, h.nodes]
  rfl

/-- A reference is followed to an id that has a node. -/
theorem join (h : Linked suggest before after failed followed) (r : Reference) {target : String}
    (hnode : before.hasNode target = true) :
    Linked suggest before
      { after with toGraph := after.toGraph.addEdge ⟨r.source, target, r.kind⟩ } failed
      (followed ++ [(r, target)]) where
  nodes := (Graph.nodes_addEdge _ _).trans h.nodes
  aliases := h.aliases
  failures := h.failures
  unresolved := by
    show after.unresolved = _
    rw [h.unresolved, List.filter_append]
    simp [hnode]
  leads := by
    intro a b
    rw [Graph.leads_addEdge, h.leads, h.mem_ids, h.mem_ids]
    simp [or_and_right, exists_or, or_assoc]
  selfIds := by
    intro a
    -- the target has a node, so a reference to its own node has one to refer to
    have htarget : target ∈ before.ids := Graph.hasNode_iff.mp hnode
    rw [Graph.mem_selfIds_addEdge, h.selfIds]
    simp only [List.mem_append, List.mem_singleton, or_and_right, exists_or, exists_eq_left,
      or_assoc]
    refine or_congr Iff.rfl (or_congr Iff.rfl ?_)
    constructor
    · rintro ⟨rfl, he⟩
      exact ⟨rfl, he, he ▸ htarget⟩
    · rintro ⟨rfl, he, -⟩
      exact ⟨rfl, he⟩
  edges := by
    intro e he
    rcases Graph.mem_edges_addEdge he with he | rfl
    · exact (h.edges he).imp_right fun ⟨p, hp, e⟩ => ⟨p, List.mem_append_left _ hp, e⟩
    · exact Or.inr ⟨_, List.mem_append_right _ (List.mem_singleton_self _), rfl⟩
  selfReferences := by
    intro x hx
    rcases Graph.mem_selfReferences_addEdge hx with hx | ⟨rfl, he⟩
    · exact (h.selfReferences hx).imp_right fun ⟨p, hp, e⟩ => ⟨p, List.mem_append_left _ hp, e⟩
    · exact Or.inr ⟨_, List.mem_append_right _ (List.mem_singleton_self _), rfl, he⟩
  wellFormed := fun hw => (h.wellFormed hw).addEdge _

/-- A reference is followed to an id that has no node. -/
theorem miss (h : Linked suggest before after failed followed) (r : Reference) {target : String}
    (hnode : ¬before.hasNode target = true) :
    Linked suggest before
      { after with unresolved := after.unresolved ++ [after.report suggest (r, target)] } failed
      (followed ++ [(r, target)]) where
  nodes := h.nodes
  aliases := h.aliases
  failures := h.failures
  unresolved := by
    have hreport : after.report suggest = before.report suggest := by
      funext p
      rw [ReferenceGraph.report, ReferenceGraph.report, Graph.suggestion?, h.nodes]
      rfl
    show after.unresolved ++ _ = _
    rw [h.unresolved, hreport, List.filter_append, List.map_append, List.append_assoc]
    simp [hnode]
  leads := by
    intro a b
    refine h.leads.trans (or_congr Iff.rfl ⟨?_, ?_⟩)
    · exact fun ⟨p, hp, e⟩ => ⟨p, List.mem_append_left _ hp, e⟩
    · rintro ⟨p, hp, hab⟩
      rcases List.mem_append.mp hp with hp | hp
      · exact ⟨p, hp, hab⟩
      · -- the new pair gives no edge, as its id has no node
        obtain rfl := List.mem_singleton.mp hp
        have hb : b = target := hab.2.1
        exact absurd (Graph.hasNode_iff.mpr (hb ▸ hab.2.2.2.2)) hnode
  selfIds := by
    intro a
    refine h.selfIds.trans (or_congr Iff.rfl ⟨?_, ?_⟩)
    · exact fun ⟨p, hp, e⟩ => ⟨p, List.mem_append_left _ hp, e⟩
    · rintro ⟨p, hp, ha⟩
      rcases List.mem_append.mp hp with hp | hp
      · exact ⟨p, hp, ha⟩
      · obtain rfl := List.mem_singleton.mp hp
        have htarget : a = target := ha.2.1
        exact absurd (Graph.hasNode_iff.mpr (htarget ▸ ha.2.2)) hnode
  edges := fun he => (h.edges he).imp_right fun ⟨p, hp, e⟩ => ⟨p, List.mem_append_left _ hp, e⟩
  selfReferences := fun hx =>
    (h.selfReferences hx).imp_right fun ⟨p, hp, e⟩ => ⟨p, List.mem_append_left _ hp, e⟩
  wellFormed := h.wellFormed

/-- **A reference is followed to one id.** -/
theorem link (h : Linked suggest before after failed followed) (r : Reference) (target : String) :
    Linked suggest before (after.link suggest r target) failed (followed ++ [(r, target)]) := by
  unfold ReferenceGraph.link
  by_cases hnode : before.hasNode target = true
  · rw [if_pos ((h.hasNode target).trans hnode)]
    exact h.join r hnode
  · rw [if_neg (fun hn => hnode ((h.hasNode target).symm.trans hn))]
    exact h.miss r hnode

/-- A reference is followed to several ids. -/
theorem links (h : Linked suggest before after failed followed) (r : Reference)
    (targets : List String) :
    Linked suggest before (targets.foldl (ReferenceGraph.link suggest r) after) failed
      (followed ++ targets.map fun target => (r, target)) := by
  induction targets generalizing after followed with
  | nil => simpa using h
  | cons target targets ih =>
    have := ih (h.link r target)
    rwa [List.append_assoc] at this

variable {options : GraphOptions} {blocks : List (String × SchemaBlock)}

/-- **A reference is followed.** -/
theorem follow (h : Linked options.suggestSimilar before after failed followed)
    (haliases : before.aliases = declaredAliases blocks) (r : Reference) :
    Linked options.suggestSimilar before
      (after.follow options (NodeStage.ofDeclared (declared blocks)).operations r)
      (failed ++ (r.failure? options blocks).toList)
      (followed ++ (r.meantIds options blocks).map fun target => (r, target)) := by
  have htargets : r.targets ⟨options.primitiveStart⟩ after.aliases
      (NodeStage.ofDeclared (declared blocks)).operations = r.meant options blocks := by
    rw [h.aliases, haliases, Reference.targets_eq_meant]
  rw [ReferenceGraph.follow, htargets, Reference.failure?, Reference.meantIds]
  cases r.meant options blocks with
  | error fault => simpa using h.fail _
  | ok targets => simpa using h.links r targets

/-- All references are followed. -/
theorem follows (h : Linked options.suggestSimilar before after failed followed)
    (haliases : before.aliases = declaredAliases blocks) (rs : List Reference) :
    Linked options.suggestSimilar before
      (rs.foldl (ReferenceGraph.follow options (NodeStage.ofDeclared (declared blocks)).operations)
        after)
      (failed ++ rs.filterMap (Reference.failure? options blocks))
      (followed ++ rs.flatMap fun r =>
        (r.meantIds options blocks).map fun target => (r, target)) := by
  induction rs generalizing after failed followed with
  | nil => simpa using h
  | cons r rs ih =>
    have hrest := ih (h.follow haliases r)
    have hfailed : (r :: rs).filterMap (Reference.failure? options blocks) =
        (r.failure? options blocks).toList ++ rs.filterMap (Reference.failure? options blocks) := by
      rw [List.filterMap_cons]
      cases r.failure? options blocks <;> rfl
    rw [hfailed, List.flatMap_cons, ← List.append_assoc, ← List.append_assoc]
    exact hrest

end Linked

namespace ReferenceGraph

variable (options : GraphOptions) (blocks : List (String × SchemaBlock))

/-- The graph when all nodes are made and no reference is followed. -/
def staged : ReferenceGraph :=
  ⟨(NodeStage.ofDeclared (declared blocks)).graph, declaredAliases blocks, [], []⟩

/-- The references of the blocks, each with every id that it means. -/
def meanings : List (Reference × String) :=
  (heldReferences blocks).flatMap fun r =>
    (r.meantIds options blocks).map fun target => (r, target)

theorem mem_meanings {p : Reference × String} :
    p ∈ meanings options blocks ↔
      p.1 ∈ heldReferences blocks ∧ p.2 ∈ p.1.meantIds options blocks := by
  simp only [meanings, List.mem_flatMap, List.mem_map]
  constructor
  · rintro ⟨r, hr, target, htarget, rfl⟩
    exact ⟨hr, htarget⟩
  · exact fun ⟨hr, htarget⟩ => ⟨p.1, hr, p.2, htarget, rfl⟩

/-- **What the finished graph has become**: every reference was read or failed, and was followed to
all that it means. -/
theorem linked_build : Linked options.suggestSimilar (staged blocks) (build options blocks)
    ((heldReferences blocks).filterMap (Reference.failure? options blocks))
    (meanings options blocks) := by
  have hbuild : build options blocks = (heldReferences blocks).foldl
      (follow options (NodeStage.ofDeclared (declared blocks)).operations) (staged blocks) := by
    rw [← references_declared]
    rfl
  rw [hbuild]
  exact (Linked.refl options.suggestSimilar (staged blocks)).follows rfl (heldReferences blocks)

/-- The nodes of the finished graph are those of the introducing declarations. -/
theorem nodes_build : (build options blocks).nodes =
    (Declared.introducing [] (declared blocks)).filterMap Declared.node? :=
  (linked_build options blocks).nodes.trans (NodeStage.nodes_ofDeclared _)

theorem wellFormed_build : (build options blocks).WellFormed :=
  (linked_build options blocks).wellFormed (NodeStage.wellFormed_ofDeclared _)

/-- The finished graph has the nodes of the stage. -/
theorem mem_ids_build {id : String} : id ∈ (build options blocks).ids ↔
    ∃ d ∈ declared blocks, ∃ n, d.node? = some n ∧ n.id = id :=
  (linked_build options blocks).mem_ids.trans (NodeStage.mem_ids_declared blocks)

/-- **An edge joins a part to its owner, or a reference to what it means.** -/
theorem leads_build {a b : String} : (build options blocks).Leads a b ↔
    (NodeStage.ofDeclared (declared blocks)).graph.Leads a b ∨
      ∃ r ∈ heldReferences blocks, a = r.source ∧ b ∈ r.meantIds options blocks ∧ a ≠ b ∧
        b ∈ (build options blocks).ids := by
  have h := linked_build options blocks
  rw [h.leads]
  refine or_congr Iff.rfl ⟨?_, ?_⟩
  · rintro ⟨p, hp, rfl, rfl, hne, -, hmem⟩
    obtain ⟨hr, htarget⟩ := (mem_meanings options blocks).mp hp
    exact ⟨p.1, hr, rfl, htarget, hne, h.mem_ids.mpr hmem⟩
  · rintro ⟨r, hr, rfl, htarget, hne, hmem⟩
    exact ⟨(r, b), (mem_meanings options blocks).mpr ⟨hr, htarget⟩, rfl, rfl, hne,
      source_mem_ids_of_held hr, h.mem_ids.mp hmem⟩

/-- **A self reference is a reference that means its own node.** -/
theorem mem_selfIds_build {a : String} : a ∈ (build options blocks).selfIds ↔
    ∃ r ∈ heldReferences blocks, a = r.source ∧ a ∈ r.meantIds options blocks := by
  have h := linked_build options blocks
  have hnone : (staged blocks).selfIds = [] :=
    congrArg (List.map Prod.fst) (NodeStage.selfReferences_declared blocks)
  rw [h.selfIds, hnone]
  constructor
  · rintro (hmem | ⟨p, hp, rfl, htarget, -⟩)
    · exact absurd hmem List.not_mem_nil
    · obtain ⟨hr, hmeant⟩ := (mem_meanings options blocks).mp hp
      exact ⟨p.1, hr, rfl, htarget ▸ hmeant⟩
  · rintro ⟨r, hr, rfl, htarget⟩
    exact Or.inr ⟨(r, r.source), (mem_meanings options blocks).mpr ⟨hr, htarget⟩, rfl, rfl,
      source_mem_ids_of_held hr⟩

end ReferenceGraph

end CsdlAudit
