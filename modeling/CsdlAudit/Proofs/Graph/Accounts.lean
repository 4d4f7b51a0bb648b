import CsdlAudit.Proofs.Graph.Build

/-!
# Every reference is accounted for

A reference that cannot be read ends as one failure. Any other ends, for each id that it means, as
one edge, as a note that its node refers to itself, or as one report of an id that no node of the
finished graph has. `ReferenceGraph.Accounts` says so of a graph, and that there is nothing else in
it; `ReferenceGraph.accounts_build` says it of every graph that is built.

An import means the operations that its name *introduces*. An operation whose id was taken before it
is not among them, though it has the name: see `ReferenceGraph.overlapping`.
-/

namespace CsdlAudit.ReferenceGraph

/-- **A graph accounts for every reference of the blocks**, and has nothing else. -/
structure Accounts (options : GraphOptions) (blocks : List (String × SchemaBlock))
    (g : ReferenceGraph) : Prop where
  /-- Everything that is declared in any of the blocks has a node, and nothing else has. -/
  mem_ids : ∀ id, id ∈ g.ids ↔ ∃ d ∈ declared blocks, ∃ n, d.node? = some n ∧ n.id = id
  /-- The failures are those of the references that cannot be read, in their order. -/
  failures : g.failures = (heldReferences blocks).filterMap (Reference.failure? options blocks)
  /-- The reports are those of the ids that a reference means and no node has, in their order. -/
  unresolved : g.unresolved = (heldReferences blocks).flatMap fun r =>
    ((r.meantIds options blocks).filter fun id => !g.hasNode id).map fun id =>
      g.report options.suggestSimilar (r, id)
  /-- The node of a reference is there. -/
  source_mem : ∀ r ∈ heldReferences blocks, r.source ∈ g.ids
  /-- A reference that means the id of another node ends as one edge, and no self reference. -/
  edge : ∀ r ∈ heldReferences blocks, ∀ id ∈ r.meantIds options blocks, id ∈ g.ids →
    id ≠ r.source → g.arrows.count (r.source, id) = 1
  /-- A reference that means its own node ends as one self reference, and no edge. -/
  self : ∀ r ∈ heldReferences blocks, r.source ∈ r.meantIds options blocks →
    g.selfIds.count r.source = 1 ∧ g.arrows.count (r.source, r.source) = 0
  /-- A reference that means an id without a node ends neither as an edge nor as a self
  reference. -/
  missing : ∀ r ∈ heldReferences blocks, ∀ id ∈ r.meantIds options blocks, id ∉ g.ids →
    g.arrows.count (r.source, id) = 0 ∧ id ≠ r.source
  /-- Every edge joins a part to its owner, or is that of a reference. -/
  edges : ∀ e ∈ g.edges,
    (∃ n, .part e.source n ∈ declared blocks ∧ e = ⟨e.source, n.id, .contains⟩) ∨
      ∃ r ∈ heldReferences blocks, e.target ∈ r.meantIds options blocks ∧
        e = ⟨r.source, e.target, r.kind⟩
  /-- Every self reference is that of a reference. -/
  selfReferences : ∀ x ∈ g.selfReferences,
    ∃ r ∈ heldReferences blocks, r.source ∈ r.meantIds options blocks ∧ x = (r.source, r.kind)

/-- **Every graph that is built accounts for the references of its blocks.** -/
theorem accounts_build (options : GraphOptions) (blocks : List (String × SchemaBlock)) :
    (build options blocks).Accounts options blocks := by
  have h := linked_build options blocks
  have hwf := wellFormed_build options blocks
  have hsource : ∀ r ∈ heldReferences blocks, r.source ∈ (build options blocks).ids := by
    intro r hr
    obtain ⟨id, hid⟩ := mem_references_declared.mp (references_declared blocks ▸ hr)
    exact h.mem_ids.mpr hid.source_mem_ids
  have hnone : ∀ {a b}, ¬(build options blocks).Leads a b →
      (build options blocks).arrows.count (a, b) = 0 := fun hab =>
    List.count_eq_zero.mpr fun hmem => hab (Graph.mem_arrows.mp hmem)
  exact {
    mem_ids := fun id => mem_ids_build options blocks
    failures := h.failures
    unresolved := by
      -- what is suggested for an id depends on the nodes only, and these are those of the stage
      have hreport : (staged blocks).report options.suggestSimilar =
          (build options blocks).report options.suggestSimilar := by
        funext p
        rw [report, report, Graph.suggestion?, Graph.suggestion?, h.nodes]
      have hnode : ∀ id, (staged blocks).hasNode id = (build options blocks).hasNode id :=
        fun id => (h.hasNode id).symm
      rw [h.unresolved, hreport]
      show [] ++ _ = _
      simp only [List.nil_append, meanings, List.filter_flatMap, List.map_flatMap, hnode,
        List.filter_map, List.map_map]
      rfl
    source_mem := hsource
    edge := by
      intro r hr id hmeant hmem hne
      refine List.count_eq_one_of_mem hwf.nodup_arrows (Graph.mem_arrows.mpr ?_)
      exact (leads_build options blocks).mpr (Or.inr ⟨r, hr, rfl, hmeant, hne.symm, hmem⟩)
    self := by
      intro r hr hmeant
      refine ⟨List.count_eq_one_of_mem hwf.nodup_selfIds ?_, hnone fun hab => ?_⟩
      · exact (mem_selfIds_build options blocks).mpr ⟨r, hr, rfl, hmeant⟩
      · exact hwf.ne_of_leads hab rfl
    missing := by
      intro r hr id _ hmem
      exact ⟨hnone fun hab => hmem (hwf.target_mem hab), fun e => hmem (e ▸ hsource r hr)⟩
    edges := by
      intro e he
      rcases h.edges he with he | ⟨p, hp, rfl⟩
      · rcases NodeStage.edges_foldl he with he | ⟨owner, n, hpart, rfl⟩
        · exact absurd he List.not_mem_nil
        · exact Or.inl ⟨n, hpart, rfl⟩
      · obtain ⟨hr, hmeant⟩ := (mem_meanings options blocks).mp hp
        exact Or.inr ⟨p.1, hr, hmeant, rfl⟩
    selfReferences := by
      intro x hx
      rcases h.selfReferences hx with hx | ⟨p, hp, rfl, he⟩
      · exact absurd hx (by simp [staged, NodeStage.selfReferences_declared])
      · obtain ⟨hr, hmeant⟩ := (mem_meanings options blocks).mp hp
        exact ⟨p.1, hr, he ▸ hmeant, rfl⟩ }

/-! ## Operations that share an id -/

/-- **Two functions of different names with one id**: what the first has for a name ends with the
beginning of the second's parameters. The import names the second. -/
def overlapping : List (String × SchemaBlock) :=
  [("a.xml",
    { SchemaBlock.bare (some "A") none with
      functions :=
        [⟨"F(Collection", false, false, [⟨"p", "Edm.String)", true⟩], none, []⟩,
          ⟨"F", false, false, [⟨"p", "Collection(Edm.String)", true⟩], none, []⟩]
      entityContainer :=
        some ⟨"C", none, [], [], [], [⟨"I", "A.F", none, false, []⟩], []⟩ })]

/-- **The second of them is not found by its name**: it is declared and has a node, but the import
of its name is reported to lead nowhere. -/
theorem overlapping_not_linked :
    .operation "A.F" ⟨"A.F(Collection(Edm.String))", .function, none, "A", "a.xml"⟩ ∈
        declared overlapping ∧
      ((build .standard overlapping).node? "A.F(Collection(Edm.String))").map (·.kind) =
        some .function ∧
      ⟨"A.C.functionImport.I", .operation "A.F", .importTarget, "A", "a.xml"⟩ ∈
        heldReferences overlapping ∧
      TypeReader.resolve ⟨"Edm."⟩ "A.F" "A" (declaredAliases overlapping) = .ok (.element "A.F") ∧
      (build .standard overlapping).hasEdge "A.C.functionImport.I" "A.F(Collection(Edm.String))" =
        false ∧
      (build .standard overlapping).unresolved.map (fun u => (u.source, u.target)) =
        [("A.C.functionImport.I", "A.F")] := by
  decide +kernel

end CsdlAudit.ReferenceGraph
