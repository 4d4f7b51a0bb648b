import CsdlAudit.Proofs.Double
import CsdlAudit.Proofs.Graph.Condensation
import CsdlAudit.Proofs.Graph.Worklist

/-!
# What the statistics measure

The statistics take the depths of all nodes together: the greatest, and the mean as the nearest
floating-point number to the sum by the count. `Graph.depthsMeasured_assemble` says what they are of
and how they hang together with the classes, the kinds of node and the leaves.
-/

namespace CsdlAudit

/-! ## Counts by key -/

theorem total_eq_zero {ns : List Nat} (h : ∀ n ∈ ns, n = 0) : total ns = 0 := by
  induction ns with
  | nil => rfl
  | cons n ns ih =>
    obtain ⟨hn, hns⟩ := List.forall_mem_cons.mp h
    rw [total_cons, hn, ih hns]

/-- Where one of the keys is counted once more, the sum is one more. -/
theorem total_map_count_succ {κ : Type} [DecidableEq κ] {keys : List κ} (hnodup : keys.Nodup)
    {key : κ} (hkey : key ∈ keys) (f : κ → Nat) :
    total (keys.map fun k => if key = k then f k + 1 else f k) = total (keys.map f) + 1 := by
  induction keys with
  | nil => exact absurd hkey List.not_mem_nil
  | cons k rest ih =>
    obtain ⟨hk, hnodup⟩ := List.nodup_cons.mp hnodup
    rw [List.map_cons, List.map_cons, total_cons, total_cons]
    rcases List.mem_cons.mp hkey with rfl | hrest
    · have hsame : (rest.map fun k => if key = k then f k + 1 else f k) = rest.map f :=
        List.map_congr_left fun k hmem => if_neg (ne_of_mem_of_not_mem hmem hk).symm
      rw [if_pos rfl, hsame]
      omega
    · rw [if_neg (ne_of_mem_of_not_mem hrest hk), ih hnodup hrest, Nat.add_assoc]

/-- **Whatever is counted by keys is counted once.** -/
theorem total_map_length_filter {α κ : Type} [DecidableEq κ] {keys : List κ} (hnodup : keys.Nodup)
    {f : α → κ} (hkeys : ∀ a, f a ∈ keys) (as : List α) :
    total (keys.map fun k => (as.filter fun a => f a == k).length) = as.length := by
  induction as with
  | nil =>
    refine total_eq_zero fun n hn => ?_
    obtain ⟨_, -, rfl⟩ := List.mem_map.mp hn
    rfl
  | cons a rest ih =>
    have hcons : ∀ k, ((a :: rest).filter fun a => f a == k).length =
        if f a = k then (rest.filter fun a => f a == k).length + 1
        else (rest.filter fun a => f a == k).length := by
      intro k
      by_cases hk : f a = k
      · rw [if_pos hk, List.filter_cons_of_pos (by simpa using hk), List.length_cons]
      · rw [if_neg hk, List.filter_cons_of_neg (by simpa using hk)]
    rw [funext hcons, total_map_count_succ hnodup (hkeys a), ih, List.length_cons]

/-- Counts of 0 can be left out. -/
theorem total_map_filter_ne_zero {κ : Type} (counts : List (κ × Nat)) :
    total ((counts.filter fun k => k.2 != 0).map Prod.snd) = total (counts.map Prod.snd) := by
  induction counts with
  | nil => rfl
  | cons k rest ih =>
    rw [List.filter_cons]
    split
    · rw [List.map_cons, List.map_cons, total_cons, total_cons, ih]
    · next hzero =>
      have hzero : k.2 = 0 := by simpa using hzero
      rw [ih, List.map_cons, total_cons, hzero, Nat.zero_add]

theorem NodeKind.nodup_all : NodeKind.all.Nodup := by decide

theorem NodeKind.mem_all (kind : NodeKind) : kind ∈ NodeKind.all := by cases kind <;> decide

namespace Graph

theorem totalNodes_eq (g : Graph) : g.statistics.totalNodes = g.ids.length :=
  (List.length_map _).symm

/-- **The kinds of node add up.** -/
theorem total_nodesByKind (g : Graph) :
    total (g.statistics.nodesByKind.map Prod.snd) = g.statistics.totalNodes := by
  have hcounts : g.statistics.nodesByKind =
      (NodeKind.all.map fun k => (k, (g.nodes.filter fun n => n.kind == k).length)).filter
        fun k => k.2 != 0 := rfl
  have hall : ∀ n : Node, n.kind ∈ NodeKind.all := fun n => n.kind.mem_all
  rw [hcounts, total_map_filter_ne_zero, List.map_map]
  exact total_map_length_filter NodeKind.nodup_all hall g.nodes

/-- Where there is no cycle, every class has one member. -/
theorem Acyclic.sameClass_iff {g : Graph} (hacyclic : g.Acyclic) {a b : String} :
    g.SameClass a b ↔ a = b :=
  or_iff_left fun hab => hacyclic a (hab.1.trans hab.2)

namespace WellFormed

variable {g : Graph} (h : g.WellFormed)

include h

theorem map_snd_depths : g.depths.map Prod.snd = g.ids.map g.depth := by
  rw [h.depths_eq, List.map_map]
  rfl

theorem depthSum_eq : g.statistics.depthSum = total (g.ids.map g.depth) :=
  congrArg total h.map_snd_depths

/-- The mean is the floating-point number nearest to the sum by the count, which are those of no
number where there is no node. -/
theorem nearest_meanDepth : Double.Nearest false
    ((total (g.ids.map g.depth) : ℚ) / g.ids.length) g.statistics.meanDepth := by
  rw [Statistics.meanDepth, h.depthSum_eq, totalNodes_eq]
  by_cases hnone : g.ids.length = 0
  · have hzero := Double.nearest_ofQuotient false 0 Nat.one_pos
    rw [Nat.cast_zero, zero_div] at hzero
    rwa [if_pos hnone, hnone, Nat.cast_zero, div_zero]
  · rw [if_neg hnone]
    exact Double.nearest_ofQuotient false _ (Nat.pos_of_ne_zero hnone)

/-- The greatest depth is that of a node, and no node has a greater one. -/
theorem isGreatest_maxDepth (hne : g.ids ≠ []) :
    IsGreatest {n | ∃ a ∈ g.ids, g.depth a = n} g.statistics.maxDepth := by
  have hmax : g.statistics.maxDepth = (g.ids.map g.depth).foldl max 0 :=
    congrArg (List.foldl max 0) h.map_snd_depths
  obtain ⟨hmem, hle⟩ := isGreatest_foldl_max 0 (g.ids.map g.depth)
  have hall : ∀ a ∈ g.ids, g.depth a ≤ (g.ids.map g.depth).foldl max 0 := fun a ha =>
    hle (List.mem_cons_of_mem 0 (List.mem_map_of_mem ha))
  rw [hmax]
  refine ⟨?_, ?_⟩
  · rcases List.mem_cons.mp hmem with hzero | htaken
    · obtain ⟨a, ha⟩ := List.exists_mem_of_ne_nil _ hne
      exact ⟨a, ha, le_antisymm (hall a ha) (hzero.le.trans (Nat.zero_le _))⟩
    · exact List.mem_map.mp htaken
  · rintro n ⟨a, ha, rfl⟩
    exact hall a ha

/-- Where there is no cycle, the nodes of depth 0 are those from which no edge leads. -/
theorem depth_eq_zero_iff_targets (hacyclic : g.Acyclic) (a : String) :
    g.depth a = 0 ↔ (g.targets a).isEmpty = true := by
  rw [h.depth_eq_zero_iff, List.isEmpty_iff, List.eq_nil_iff_forall_not_mem]
  simp only [mem_targets, hacyclic.sameClass_iff]
  constructor
  · intro hstay b hab
    exact h.ne_of_leads hab (hstay a b rfl hab)
  · rintro hnone b c rfl hbc
    exact absurd hbc (hnone c)

end WellFormed

/-- **What the statistics of a graph measure.** -/
structure DepthsMeasured (g : Graph) : Prop where
  /-- The depth of an id is the greatest number of crossings on a walk from it. -/
  depth : ∀ a, IsGreatest {n | ∃ k, g.Crosses k a n} (g.depth a)
  /-- Every node has its depth, once. -/
  once : g.depths.map Prod.fst = g.ids ∧ g.ids.Nodup
  /-- The nodes of a class have the same depth. -/
  sameClass : ∀ a b, g.SameClass a b → g.depth a = g.depth b
  /-- An edge that leads into another class leads to a smaller depth. -/
  crossing : ∀ a b, g.Leads a b → ¬g.SameClass a b → g.depth b < g.depth a
  /-- The depth is 0 where no edge leaves the class. -/
  zero : ∀ a, g.depth a = 0 ↔ ∀ b c, g.SameClass a b → g.Leads b c → g.SameClass a c
  /-- The greatest depth is that of a node, and no node has a greater one. -/
  maxDepth : g.ids ≠ [] → IsGreatest {n | ∃ a ∈ g.ids, g.depth a = n} g.statistics.maxDepth
  /-- The sum is that of the depths of all nodes, and they are counted. -/
  sum : g.statistics.depthSum = total (g.ids.map g.depth) ∧
    g.statistics.totalNodes = g.ids.length
  /-- The mean is the floating-point number nearest to the sum by the count. -/
  mean : Double.Nearest false ((total (g.ids.map g.depth) : ℚ) / g.ids.length)
    g.statistics.meanDepth
  /-- There is a condensation, and it can be put in an order in which no edge leads back. -/
  condensed : ∃ classes order, g.Condensed classes ∧ g.ClassOrder classes order
  /-- The greatest depth is less than the number of classes. -/
  bounded : g.ids ≠ [] → ∀ classes, g.Condensed classes → g.statistics.maxDepth < classes.length
  /-- Class by class, from the end of any such order on, the same depths are found. -/
  divided : ∀ classes order, g.Condensed classes → g.ClassOrder classes order →
    (g.memberDepths classes order).Perm g.depths
  /-- The kinds of node add up. -/
  kinds : total (g.statistics.nodesByKind.map Prod.snd) = g.statistics.totalNodes
  /-- Where there is no cycle, the leaves are the nodes of depth 0. -/
  leaves : g.Acyclic →
    g.statistics.leafNodes = (g.ids.filter fun a => g.depth a = 0).length

/-- **The statistics measure the depths of every graph**, in whatever order it was put together. -/
theorem depthsMeasured_assemble (additions : List Addition) :
    (assemble additions).DepthsMeasured := by
  have h := wellFormed_assemble additions
  generalize assemble additions = g at h
  exact {
    depth := h.isGreatest_depth
    once := ⟨map_fst_depths g, h.nodup_ids⟩
    sameClass := fun _ _ => h.depth_eq_of_sameClass
    crossing := fun _ _ => h.depth_lt_of_leads
    zero := fun _ => h.depth_eq_zero_iff
    maxDepth := h.isGreatest_maxDepth
    sum := ⟨h.depthSum_eq, totalNodes_eq g⟩
    mean := h.nearest_meanDepth
    condensed := by
      obtain ⟨classes, hclasses⟩ := h.exists_condensed
      obtain ⟨order, horder⟩ := h.exists_classOrder hclasses.toDivision
      exact ⟨classes, order, hclasses, horder⟩
    bounded := by
      intro hne classes hclasses
      obtain ⟨⟨a, ha, hmax⟩, -⟩ := h.isGreatest_maxDepth hne
      exact hmax ▸ h.depth_lt_length hclasses ha
    divided := fun _ _ condensed => h.memberDepths_perm condensed
    kinds := total_nodesByKind g
    leaves := by
      intro hacyclic
      refine congrArg List.length (List.filter_congr fun a _ => ?_)
      rw [Bool.eq_iff_iff, decide_eq_true_eq]
      exact (h.depth_eq_zero_iff_targets hacyclic a).symm }

end Graph

end CsdlAudit
