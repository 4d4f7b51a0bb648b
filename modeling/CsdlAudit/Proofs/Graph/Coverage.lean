import CsdlAudit.Proofs.Graph.Build
import CsdlAudit.Proofs.Graph.Cycles

/-!
# How far the reported cycles cover a graph

Every node that reaches itself is in a class of nodes that reach each other, and the scan reports a
cycle of that class (`Graph.WellFormed.exists_cycle_of_reaches`). If no node reaches itself and none
refers to itself, nothing is reported, and only then (`ReferenceGraph.cycles_build`).

The reported cycle need not lead through the node. The scan visits every node once, so a cycle that
comes back to its path through a node that is already left is not closed again:
`ReferenceGraph.uncovered_shortcut` has a node that is on a cycle and in no report.
-/

namespace CsdlAudit

open Relation

namespace Graph.WellFormed

variable {g : Graph} (h : g.WellFormed)

include h

/-- **A cycle is reported in the class of every node that reaches itself.** -/
theorem exists_cycle_of_reaches {x : String} (hx : g.Reaches x x) :
    ∃ c ∈ g.cycles, g.IsCycle c ∧ ∀ y ∈ c, g.SameClass x y := by
  obtain ⟨group, hgroup, hxg⟩ := h.exists_component_of_reaches hx
  obtain ⟨c, hc, hcycle, hsub⟩ := h.exists_cycle_of_component hgroup
  exact ⟨c, hc, hcycle, fun y hy => (h.mem_component_iff hgroup hxg y).mp (hsub hy)⟩

/-- **Nothing is reported just when no node reaches itself or refers to itself.** -/
theorem cycles_eq_nil_iff : g.cycles = [] ↔ (∀ x, ¬g.Reaches x x) ∧ g.selfIds = [] := by
  constructor
  · intro hnil
    refine ⟨fun x hx => h.cycles_ne_nil_of_reaches hx hnil, ?_⟩
    exact List.eq_nil_iff_forall_not_mem.mpr fun a ha => cycles_ne_nil_of_self ha hnil
  · rintro ⟨hnone, hself⟩
    refine List.eq_nil_iff_forall_not_mem.mpr fun c hc => ?_
    rcases h.isCycle_or_self hc with hcycle | ⟨a, ha, -⟩
    · obtain ⟨x, y, mid, rfl, -⟩ := hcycle.eq_cons_concat
      have hx : x ∈ x :: y :: mid ++ [x] := List.mem_cons_self
      exact hnone x (hcycle.mutual_of_mem hx hx).1
    · rw [hself] at ha
      exact List.not_mem_nil ha

end Graph.WellFormed

namespace ReferenceGraph

/-- **What the reports say of the graph of any blocks**: there is one in the class of every node
that reaches itself, and none if no node reaches itself or refers to itself. -/
theorem cycles_build (options : GraphOptions) (blocks : List (String × SchemaBlock)) :
    (∀ x, (build options blocks).Reaches x x → ∃ c ∈ (build options blocks).cycles,
        (build options blocks).IsCycle c ∧ ∀ y ∈ c, (build options blocks).SameClass x y) ∧
      ((build options blocks).cycles = [] ↔
        (∀ x, ¬(build options blocks).Reaches x x) ∧ (build options blocks).selfIds = []) :=
  ⟨fun _ hx => (wellFormed_build options blocks).exists_cycle_of_reaches hx,
    (wellFormed_build options blocks).cycles_eq_nil_iff⟩

/-- **Two cycles that share a step**: `A` leads to `B` and back, and to `B` by way of `C` too. -/
def shortcut : List (String × SchemaBlock) :=
  [("a.xml",
    { SchemaBlock.bare (some "N") none with
      terms :=
        [⟨"A", "N.B", some "N.C", [], []⟩, ⟨"B", "N.A", none, [], []⟩,
          ⟨"C", "N.B", none, [], []⟩] })]

/-- The scan leaves `B` before it comes to `C`, and so closes one of the two. -/
theorem cycles_shortcut : (build .standard shortcut).cycles = [["N.A", "N.B", "N.A"]] := by
  have hids : (build .standard shortcut).sortedIds = ["N.A", "N.B", "N.C"] := by decide +kernel
  have hself : (build .standard shortcut).selfReferences = [] := by decide +kernel
  have hA : (build .standard shortcut).dependencies "N.A" = ["N.B", "N.C"] := by decide +kernel
  have hB : (build .standard shortcut).dependencies "N.B" = ["N.A"] := by decide +kernel
  have hC : (build .standard shortcut).dependencies "N.C" = ["N.B"] := by decide +kernel
  simp [Graph.cycles, hids, hself, Graph.cyclesFrom, hA, hB, hC, Frames.visits,
    Frames.closedPath, Frames.path]

/-- **A node on a cycle that no report leads through.** -/
theorem uncovered_shortcut : (build .standard shortcut).Reaches "N.C" "N.C" ∧
    ∀ c ∈ (build .standard shortcut).cycles, "N.C" ∉ c := by
  have hCB : (build .standard shortcut).Leads "N.C" "N.B" :=
    Graph.hasEdge_iff.mp (by decide +kernel)
  have hBA : (build .standard shortcut).Leads "N.B" "N.A" :=
    Graph.hasEdge_iff.mp (by decide +kernel)
  have hAC : (build .standard shortcut).Leads "N.A" "N.C" :=
    Graph.hasEdge_iff.mp (by decide +kernel)
  refine ⟨((TransGen.single hCB).tail hBA).tail hAC, ?_⟩
  rw [cycles_shortcut]
  decide

end ReferenceGraph

end CsdlAudit
