import Mathlib.Data.List.Perm.Basic
import Mathlib.Order.Lattice
import CsdlAudit.Graph.Drawing
import CsdlAudit.Graph.Impact
import CsdlAudit.Graph.Statistics
import CsdlAudit.Proofs.Graph.Components

/-!
# Queries see the content of a graph only

Two graphs have the same *content* when they have the same nodes by id and kind, the same edges and
the same ids that refer to themselves. The order in which nodes and edges were added is not part of
it, and neither are the namespace and the file of a node. No query looks further
(`Graph.sameAnswers_assemble`).

The argument follows what a query is made of. Lists of neighbours and closures ascend, so they are
told by their members. The scan for cycles and the search for a path see a graph through
`dependencies` alone; the search also has the ids it has not tried, of which it uses membership
only. Counts and drawings come from lists that are permutations of each other, and a drawing puts
its edges in an order in which no two of them tie.
-/

namespace CsdlAudit

/-- Sums do not depend on the order of the numbers. -/
theorem total_eq_of_perm {ns ms : List Nat} (h : ns.Perm ms) : total ns = total ms := by
  induction h with
  | nil => rfl
  | cons n _ ih => rw [total_cons, total_cons, ih]
  | swap n m ns => simp only [total_cons, Nat.add_left_comm]
  | trans _ _ ih₁ ih₂ => exact ih₁.trans ih₂

theorem isEmpty_eq_of_mem_iff {α : Type} {xs ys : List α} (h : ∀ x, x ∈ xs ↔ x ∈ ys) :
    xs.isEmpty = ys.isEmpty := by
  rw [Bool.eq_iff_iff, List.isEmpty_iff, List.isEmpty_iff, List.eq_nil_iff_forall_not_mem,
    List.eq_nil_iff_forall_not_mem]
  exact forall_congr' fun x => not_congr (h x)

namespace Graph

/-- **Graphs with the same content**: what is left of a graph without the order in which it was
put together. -/
structure SameContent (g h : Graph) : Prop where
  /-- They have nodes of the same ids and kinds. -/
  nodes : ∀ id kind, (∃ n ∈ g.nodes, n.id = id ∧ n.kind = kind) ↔
    ∃ n ∈ h.nodes, n.id = id ∧ n.kind = kind
  /-- They have the same edges. -/
  edges : ∀ e, e ∈ g.edges ↔ e ∈ h.edges
  /-- The same ids refer to themselves, noted in the same order. -/
  selfIds : g.selfIds = h.selfIds

/-- **Graphs that give the same answers** to every query. -/
structure SameAnswers (g h : Graph) : Prop where
  /-- What an id depends on directly. -/
  dependencies : ∀ id, g.dependencies id = h.dependencies id
  /-- What depends on an id directly. -/
  dependents : ∀ id, g.dependents id = h.dependents id
  /-- Everything that an id depends on. -/
  allDependencies : ∀ id, g.allDependencies id = h.allDependencies id
  /-- Everything that depends on an id. -/
  allDependents : ∀ id, g.allDependents id = h.allDependents id
  /-- The dependencies that depend on nothing. -/
  leafDependencies : ∀ id, g.leafDependencies id = h.leafDependencies id
  /-- The cycles that are reported. -/
  cycles : g.cycles = h.cycles
  /-- The path from one id to another. -/
  path : ∀ start goal, g.path start goal = h.path start goal
  /-- The impact of an element. -/
  impact : ∀ id, g.impact id = h.impact id
  /-- The components. -/
  components : g.components = h.components
  /-- The statistics. -/
  statistics : g.statistics = h.statistics
  /-- The drawing. -/
  drawing : g.drawing = h.drawing

/-! ## Searches that see a graph through its dependencies -/

theorem cyclesFrom_congr {g h : Graph} (hdeps : ∀ id, g.dependencies id = h.dependencies id)
    (remaining : List String) (frames : Frames) :
    g.cyclesFrom remaining frames = h.cyclesFrom remaining frames := by
  fun_induction g.cyclesFrom remaining frames with
  | case1 => simp only [cyclesFrom]
  | case2 start rest ih => rw [ih, hdeps, cyclesFrom]
  | case3 remaining id outer ih => rw [ih, cyclesFrom]
  | case4 remaining id next rest outer hvisits ih => rw [ih, cyclesFrom, if_pos hvisits]
  | case5 remaining id next rest outer hvisits hmem _ ih =>
    rw [ih, hdeps, cyclesFrom, if_neg hvisits, dif_pos hmem]
  | case6 remaining id next rest outer hvisits hmem ih =>
    rw [ih, cyclesFrom, if_neg hvisits, dif_neg hmem]

/-- The search for a path uses of the ids not yet tried which they are, not their order. -/
theorem pathFrom_congr {g h : Graph} (hdeps : ∀ id, g.dependencies id = h.dependencies id)
    {goal : String} {remaining remaining' : List String} {frames : Frames}
    (hperm : remaining.Perm remaining') :
    g.pathFrom goal remaining frames = h.pathFrom goal remaining' frames := by
  fun_induction g.pathFrom goal remaining frames generalizing remaining' with
  | case1 => simp only [pathFrom]
  | case2 remaining id outer ih => rw [ih hperm, pathFrom]
  | case3 remaining id rest outer => rw [pathFrom, if_pos rfl]
  | case4 remaining id next rest outer hgoal hmem _ ih =>
    rw [ih (hperm.erase next), hdeps, pathFrom, if_neg hgoal, dif_pos (hperm.mem_iff.mp hmem)]
  | case5 remaining id next rest outer hgoal hmem ih =>
    rw [ih hperm, pathFrom, if_neg hgoal, dif_neg (fun hmem' => hmem (hperm.mem_iff.mpr hmem'))]

/-! ## Depths -/

/-- Deepening stops early where it would change nothing any more. -/
theorem deepenTimes_eq_iterate (edges : List (String × String × Nat)) (n : Nat) (ds : Depths) :
    deepenTimes edges n ds = (deepen edges)^[n] ds := by
  induction n generalizing ds with
  | zero => rfl
  | succ n ih =>
    simp only [deepenTimes]
    split
    · next hstop => exact (Function.iterate_fixed hstop (n + 1)).symm
    · exact ih _

@[simp] theorem map_fst_deepen (edges : List (String × String × Nat)) (ds : Depths) :
    (deepen edges ds).map Prod.fst = ds.map Prod.fst := by
  simp only [deepen, List.map_map]
  rfl

theorem deepen_perm {edges edges' : List (String × String × Nat)} {ds ds' : Depths}
    (hedges : edges.Perm edges') (hds : ds.Perm ds') (hnodup : (ds.map Prod.fst).Nodup) :
    (deepen edges ds).Perm (deepen edges' ds') := by
  have hof : ∀ id, ds.of id = ds'.of id := fun id => by
    rw [Depths.of, Depths.of, find?_key_eq_of_perm hds hnodup]
  refine (hds.map _).trans (List.Perm.of_eq (List.map_congr_left fun d _ => ?_))
  simp only [hof]
  rw [((hedges.filter _).map _).foldl_eq]

theorem iterate_deepen_perm {edges edges' : List (String × String × Nat)} {ds ds' : Depths}
    (hedges : edges.Perm edges') (hds : ds.Perm ds') (hnodup : (ds.map Prod.fst).Nodup) (n : Nat) :
    ((deepen edges)^[n] ds).Perm ((deepen edges')^[n] ds') := by
  induction n generalizing ds ds' with
  | zero => exact hds
  | succ n ih => exact ih (deepen_perm hedges hds hnodup) (by rwa [map_fst_deepen])

/-! ## The order of a drawing -/

theorem edgeLe_iff {a b : Edge} :
    edgeLe a b = true ↔ a.source < b.source ∨ a.source = b.source ∧ a.target ≤ b.target := by
  simp [edgeLe]

theorem edgeLe_total (a b : Edge) : (edgeLe a b || edgeLe b a) = true := by
  rw [Bool.or_eq_true, edgeLe_iff, edgeLe_iff]
  rcases lt_trichotomy a.source b.source with hlt | heq | hgt
  · exact Or.inl (Or.inl hlt)
  · exact (le_total a.target b.target).imp (fun h => Or.inr ⟨heq, h⟩)
      (fun h => Or.inr ⟨heq.symm, h⟩)
  · exact Or.inr (Or.inl hgt)

theorem edgeLe_trans (a b c : Edge) (hab : edgeLe a b = true) (hbc : edgeLe b c = true) :
    edgeLe a c = true := by
  rw [edgeLe_iff] at *
  rcases hab with hab | ⟨hab, hab'⟩ <;> rcases hbc with hbc | ⟨hbc, hbc'⟩
  · exact Or.inl (hab.trans hbc)
  · exact Or.inl (hbc ▸ hab)
  · exact Or.inl (hab ▸ hbc)
  · exact Or.inr ⟨hab.trans hbc, hab'.trans hbc'⟩

/-- Edges that stand before each other have the same ends. -/
theorem ends_eq_of_edgeLe {a b : Edge} (hab : edgeLe a b = true) (hba : edgeLe b a = true) :
    (a.source, a.target) = (b.source, b.target) := by
  rw [edgeLe_iff] at hab hba
  rcases hab with hab | ⟨hs, ht⟩
  · rcases hba with hba | ⟨hs, -⟩
    · exact absurd (hab.trans hba) (lt_irrefl _)
    · exact absurd hs.symm (ne_of_lt hab)
  · have hba := (hba.resolve_left (by rw [hs]; exact lt_irrefl _)).2
    rw [hs, le_antisymm ht hba]

/-- No edge stands twice, so edges are told by their members but for the order. -/
theorem WellFormed.edges_perm_of_mem_iff {g h : Graph} (hg : g.WellFormed) (hh : h.WellFormed)
    (hedges : ∀ e, e ∈ g.edges ↔ e ∈ h.edges) : g.edges.Perm h.edges :=
  (List.perm_ext_iff_of_nodup (.of_map _ hg.nodup_arrows) (.of_map _ hh.nodup_arrows)).mpr hedges

/-- **Edges are drawn in the same order** wherever they are the same. -/
theorem WellFormed.sortedEdges_eq_of_mem_iff {g h : Graph} (hg : g.WellFormed) (hh : h.WellFormed)
    (hedges : ∀ e, e ∈ g.edges ↔ e ∈ h.edges) : g.sortedEdges = h.sortedEdges := by
  have hsorted : ∀ f : Graph, f.sortedEdges.Pairwise fun a b => edgeLe a b = true := fun f =>
    List.pairwise_mergeSort edgeLe_trans edgeLe_total f.edges
  have hperm : g.sortedEdges.Perm h.sortedEdges := (List.mergeSort_perm ..).trans
    ((hg.edges_perm_of_mem_iff hh hedges).trans (List.mergeSort_perm ..).symm)
  refine hperm.eq_of_pairwise (fun a b ha hb hab hba => ?_) (hsorted g) (hsorted h)
  -- no two edges of a graph have the same ends
  have ha : a ∈ g.edges := (List.mergeSort_perm ..).mem_iff.mp ha
  have hb : b ∈ g.edges := (hedges b).mpr ((List.mergeSort_perm ..).mem_iff.mp hb)
  exact List.inj_on_of_nodup_map hg.nodup_arrows ha hb (ends_eq_of_edgeLe hab hba)

/-- **A drawing is made of the statements** of nodes, id by id, and of edges. -/
theorem drawing_eq_of_statements {g h : Graph} (hids : g.sortedIds = h.sortedIds)
    (hnodes : ∀ id, (g.node? id).map Node.statement = (h.node? id).map Node.statement)
    (hedges : g.sortedEdges = h.sortedEdges) : g.drawing = h.drawing := by
  have hstatements : ∀ f : Graph, f.sortedNodes.map Node.statement =
      f.sortedIds.filterMap fun id => (f.node? id).map Node.statement := fun f => by
    rw [sortedNodes, List.map_filterMap]
  rw [drawing, drawing, hstatements, hstatements, hids, hedges]
  simp only [hnodes]

/-- What is noted of each node is noted under unique keys. -/
theorem WellFormed.nodup_keys {g : Graph} (hg : g.WellFormed) {α : Type} (f : String → α) :
    ((g.ids.map fun id => (id, f id)).map Prod.fst).Nodup := by
  rw [List.map_map]
  simpa [Function.comp_def] using hg.nodup_ids

/-! ## Same content, same answers -/

namespace SameContent

variable {g h : Graph} (same : g.SameContent h)

include same

theorem mem_ids_iff (id : String) : id ∈ g.ids ↔ id ∈ h.ids := by
  have hids : ∀ f : Graph, id ∈ f.ids ↔ ∃ kind, ∃ n ∈ f.nodes, n.id = id ∧ n.kind = kind := by
    intro f
    simp [ids]
  rw [hids, hids]
  exact exists_congr fun kind => same.nodes id kind

theorem hasNode_eq (id : String) : g.hasNode id = h.hasNode id := by
  rw [Bool.eq_iff_iff, hasNode_iff, hasNode_iff, same.mem_ids_iff]

theorem leads_iff (a b : String) : g.Leads a b ↔ h.Leads a b :=
  exists_congr fun e => and_congr_left fun _ => same.edges e

theorem reaches_iff (a b : String) : g.Reaches a b ↔ h.Reaches a b := by
  have hleads : g.Leads = h.Leads :=
    funext fun a => funext fun b => propext (same.leads_iff a b)
  rw [Reaches, Reaches, hleads]

theorem sortedIds_eq : g.sortedIds = h.sortedIds := Ascending.ofList_eq_of_mem_iff same.mem_ids_iff

theorem dependencies_eq (id : String) : g.dependencies id = h.dependencies id := by
  refine Ascending.ofList_eq_of_mem_iff fun x => ?_
  rw [mem_targets, mem_targets, same.leads_iff]

theorem dependents_eq (id : String) : g.dependents id = h.dependents id := by
  refine Ascending.ofList_eq_of_mem_iff fun x => ?_
  rw [mem_sources, mem_sources, same.leads_iff]

/-- An id depends on nothing in both graphs or in none. -/
theorem isEmpty_targets_eq (id : String) : (g.targets id).isEmpty = (h.targets id).isEmpty :=
  isEmpty_eq_of_mem_iff fun x => by rw [mem_targets, mem_targets, same.leads_iff]

theorem isEmpty_sources_eq (id : String) : (g.sources id).isEmpty = (h.sources id).isEmpty :=
  isEmpty_eq_of_mem_iff fun x => by rw [mem_sources, mem_sources, same.leads_iff]

theorem cycles_eq : g.cycles = h.cycles := by
  have hself : ∀ f : Graph,
      f.selfReferences.map (fun r => [r.1, r.1]) = f.selfIds.map fun id => [id, id] := fun f => by
    rw [Graph.selfIds, List.map_map]
    rfl
  rw [cycles, cycles, cyclesFrom_congr same.dependencies_eq, same.sortedIds_eq, hself, hself,
    same.selfIds]

variable (hg : g.WellFormed) (hh : h.WellFormed)

include hg hh

theorem allDependencies_eq (id : String) : g.allDependencies id = h.allDependencies id := by
  refine Ascending.eq_of_mem_iff (pairwise_closure ..) (pairwise_closure ..) fun x => ?_
  rw [hg.mem_allDependencies, hh.mem_allDependencies, same.reaches_iff]

theorem allDependents_eq (id : String) : g.allDependents id = h.allDependents id := by
  refine Ascending.eq_of_mem_iff (pairwise_closure ..) (pairwise_closure ..) fun x => ?_
  rw [hg.mem_allDependents, hh.mem_allDependents, same.reaches_iff]

theorem leafDependencies_eq (id : String) : g.leafDependencies id = h.leafDependencies id := by
  rw [leafDependencies, leafDependencies, same.allDependencies_eq hg hh]
  exact List.filter_congr fun d _ => same.isEmpty_targets_eq d

theorem companions_eq (id : String) : g.companions id = h.companions id := by
  rw [companions, companions, same.allDependencies_eq hg hh, same.allDependents_eq hg hh]

theorem components_eq : g.components = h.components := by
  rw [components, components, same.sortedIds_eq]
  simp only [same.companions_eq hg hh]

theorem ids_perm : g.ids.Perm h.ids :=
  (List.perm_ext_iff_of_nodup hg.nodup_ids hh.nodup_ids).mpr same.mem_ids_iff

theorem edges_perm : g.edges.Perm h.edges := hg.edges_perm_of_mem_iff hh same.edges

/-- The nodes, by id and kind. -/
theorem kinds_perm :
    (g.nodes.map fun n => (n.id, n.kind)).Perm (h.nodes.map fun n => (n.id, n.kind)) := by
  have hnodup : ∀ {f : Graph}, f.WellFormed → (f.nodes.map fun n => (n.id, n.kind)).Nodup :=
    fun hf => List.Nodup.of_map Prod.fst (by rw [List.map_map]; exact hf.nodup_ids)
  refine (List.perm_ext_iff_of_nodup (hnodup hg) (hnodup hh)).mpr fun p => ?_
  simp only [List.mem_map, Prod.ext_iff]
  exact same.nodes p.1 p.2

theorem path_eq (start goal : String) : g.path start goal = h.path start goal := by
  rw [path, path, same.hasNode_eq, same.hasNode_eq, same.dependencies_eq,
    pathFrom_congr same.dependencies_eq ((same.ids_perm hg hh).erase start)]

theorem impact_eq (id : String) : g.impact id = h.impact id := by
  simp only [impact, same.allDependents_eq hg hh, same.dependents_eq, same.path_eq hg hh]

theorem componentTable_perm : g.componentTable.Perm h.componentTable := by
  rw [componentTable, componentTable]
  simp only [same.companions_eq hg hh]
  exact (same.ids_perm hg hh).map _

theorem weightedEdges_perm : g.weightedEdges.Perm h.weightedEdges := by
  have hnodup : (g.componentTable.map Prod.fst).Nodup := hg.nodup_keys _
  rw [weightedEdges, weightedEdges]
  simp only [find?_key_eq_of_perm (same.componentTable_perm hg hh) hnodup]
  exact (same.edges_perm hg hh).map _

theorem depths_perm : g.depths.Perm h.depths := by
  have hids := same.ids_perm hg hh
  have hlength : g.nodes.length = h.nodes.length := by
    simpa [ids] using hids.length_eq
  rw [depths, depths, deepenTimes_eq_iterate, deepenTimes_eq_iterate, hlength]
  exact iterate_deepen_perm (same.weightedEdges_perm hg hh) (hids.map _) (hg.nodup_keys _) _

/-- There are as many nodes of each kind. -/
theorem length_filter_kind_eq (kind : NodeKind) :
    (g.nodes.filter fun n => n.kind == kind).length =
      (h.nodes.filter fun n => n.kind == kind).length := by
  have hcount : ∀ f : Graph, (f.nodes.filter fun n => n.kind == kind).length =
      (f.nodes.map fun n => (n.id, n.kind)).countP fun p => p.2 == kind := fun f => by
    rw [List.countP_map, List.countP_eq_length_filter]
    rfl
  rw [hcount, hcount, (same.kinds_perm hg hh).countP_eq]

theorem statistics_eq : g.statistics = h.statistics := by
  have hids := same.ids_perm hg hh
  have hdepths := (same.depths_perm hg hh).map Prod.snd
  simp only [statistics, Statistics.mk.injEq]
  refine ⟨?_, (same.edges_perm hg hh).length_eq, ?_, ?_, hdepths.foldl_eq 0,
    total_eq_of_perm hdepths, ?_, congrArg List.length same.cycles_eq⟩
  · simpa [ids] using hids.length_eq
  · simp only [same.isEmpty_targets_eq]
    exact (hids.filter _).length_eq
  · simp only [same.isEmpty_sources_eq]
    exact (hids.filter _).length_eq
  · simp only [same.length_filter_kind_eq hg hh]

/-- A node is drawn as its id and its kind say. -/
theorem statement_eq (id : String) :
    (g.node? id).map Node.statement = (h.node? id).map Node.statement := by
  cases hn : g.node? id with
  | none =>
    have hnot : h.node? id = none := by
      simpa [hasNode, hn] using (same.hasNode_eq id).symm
    rw [hnot]
  | some n =>
    obtain ⟨hmem, hid⟩ := hg.node?_eq_some_iff.mp hn
    obtain ⟨m, hmem', hid', hkind⟩ := (same.nodes id n.kind).mp ⟨n, hmem, hid, rfl⟩
    rw [hh.node?_eq_some_iff.mpr ⟨hmem', hid'⟩]
    simp only [Option.map_some, Node.statement, hid, hid', hkind]

theorem sortedEdges_eq : g.sortedEdges = h.sortedEdges :=
  hg.sortedEdges_eq_of_mem_iff hh same.edges

theorem drawing_eq : g.drawing = h.drawing :=
  drawing_eq_of_statements same.sortedIds_eq (same.statement_eq hg hh) (same.sortedEdges_eq hg hh)

/-- **Graphs with the same content give the same answers.** -/
theorem sameAnswers : g.SameAnswers h where
  dependencies := same.dependencies_eq
  dependents := same.dependents_eq
  allDependencies := same.allDependencies_eq hg hh
  allDependents := same.allDependents_eq hg hh
  leafDependencies := same.leafDependencies_eq hg hh
  cycles := same.cycles_eq
  path := same.path_eq hg hh
  impact := same.impact_eq hg hh
  components := same.components_eq hg hh
  statistics := same.statistics_eq hg hh
  drawing := same.drawing_eq hg hh

end SameContent

/-- **Answers do not depend on how a graph was put together**: whatever sequences of additions come
to the same content, the graphs give the same answers to every query. -/
theorem sameAnswers_assemble {additions others : List Addition}
    (same : (assemble additions).SameContent (assemble others)) :
    (assemble additions).SameAnswers (assemble others) :=
  same.sameAnswers (wellFormed_assemble additions) (wellFormed_assemble others)

/-- Two types that lead to each other, one of them to itself and the other to an enumeration. -/
def forth : List Addition :=
  [.node ⟨"N.A", .entityType, none, "N", "a.xml"⟩, .node ⟨"N.B", .entityType, none, "N", "a.xml"⟩,
    .node ⟨"N.C", .enumType, none, "N", "a.xml"⟩, .edge ⟨"N.A", "N.B", .baseType⟩,
    .edge ⟨"N.B", "N.A", .navigation⟩, .edge ⟨"N.B", "N.C", .property⟩,
    .edge ⟨"N.A", "N.A", .navigation⟩]

/-- The same from another file and in another order; a second edge and a second node are refused. -/
def back : List Addition :=
  [.node ⟨"N.C", .enumType, none, "N", "b.xml"⟩, .node ⟨"N.B", .entityType, none, "N", "b.xml"⟩,
    .edge ⟨"N.B", "N.C", .property⟩, .edge ⟨"N.A", "N.A", .navigation⟩,
    .node ⟨"N.A", .entityType, none, "N", "b.xml"⟩, .node ⟨"N.B", .term, none, "N", "b.xml"⟩,
    .edge ⟨"N.B", "N.A", .navigation⟩, .edge ⟨"N.B", "N.A", .property⟩,
    .edge ⟨"N.A", "N.B", .baseType⟩]

/-- **Both come to the same content**, though not to the same graph, and so to the same answers. -/
theorem sameAnswers_forth_back :
    assemble forth ≠ assemble back ∧ (assemble forth).SameContent (assemble back) ∧
      (assemble forth).SameAnswers (assemble back) ∧
      (assemble back).components = [["N.A", "N.B"]] ∧
      (assemble back).leafDependencies "N.A" = ["N.C"] := by
  have hnodes : (assemble forth).nodes.map (fun n => (n.id, n.kind)) =
      [("N.A", .entityType), ("N.B", .entityType), ("N.C", .enumType)] := by decide +kernel
  have hnodes' : (assemble back).nodes.map (fun n => (n.id, n.kind)) =
      [("N.C", .enumType), ("N.B", .entityType), ("N.A", .entityType)] := by decide +kernel
  have hedges : (assemble forth).edges = [⟨"N.A", "N.B", .baseType⟩, ⟨"N.B", "N.A", .navigation⟩,
      ⟨"N.B", "N.C", .property⟩] := by decide +kernel
  have hedges' : (assemble back).edges = [⟨"N.B", "N.C", .property⟩, ⟨"N.B", "N.A", .navigation⟩,
      ⟨"N.A", "N.B", .baseType⟩] := by decide +kernel
  have same : (assemble forth).SameContent (assemble back) := by
    refine ⟨fun id kind => ?_, fun e => ?_, by decide +kernel⟩
    · have hmem : ∀ f : Graph, (∃ n ∈ f.nodes, n.id = id ∧ n.kind = kind) ↔
          (id, kind) ∈ f.nodes.map fun n => (n.id, n.kind) := fun f => by simp
      rw [hmem, hmem, hnodes, hnodes']
      exact (List.reverse_perm [_, _, _]).symm.mem_iff
    · rw [hedges, hedges']
      exact (List.reverse_perm [_, _, _]).symm.mem_iff
  exact ⟨by decide +kernel, same, sameAnswers_assemble same, by decide +kernel, by decide +kernel⟩

end Graph

end CsdlAudit
