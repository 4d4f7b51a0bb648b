import Mathlib.Logic.Relation
import CsdlAudit.Proofs.Graph.Assembly

/-!
# The closures are reachability

`reachFrom` spreads from layer to layer and forgets, with each layer, the ids that it has reached.
So what it lists are the ends of walks that use the remaining ids only (`mem_reachFrom`). For the
closures of a graph nothing is lost by that: a walk from a node to another one can be cut at its
last visit to the start. Hence `Graph.mem_allDependencies` and `Graph.mem_allDependents`: the
closure of an id is the set of the other ids that a walk joins it with.
-/

namespace CsdlAudit

open Relation

/-! ## Spreading along arrows -/

theorem Arrows.mem_step {as : Arrows} {layer : List String} {b : String} :
    b ∈ as.step layer ↔ ∃ a ∈ layer, (a, b) ∈ as := by
  simp only [Arrows.step, List.mem_map, List.mem_filter, List.contains_iff_mem]
  constructor
  · rintro ⟨⟨a, _⟩, ⟨hab, ha⟩, rfl⟩
    exact ⟨a, ha, hab⟩
  · rintro ⟨a, ha, hab⟩
    exact ⟨(a, b), ⟨hab, ha⟩, rfl⟩

theorem mem_unreached {remaining reached : List String} {y : String} :
    y ∈ unreached remaining reached ↔ y ∈ remaining ∧ y ∉ reached := by
  simp [unreached]

/-- An arrow that ends at one of the ids `within`. -/
def ArrowInto (as : Arrows) (within : List String) (a b : String) : Prop :=
  (a, b) ∈ as ∧ b ∈ within

/-- Whoever walks through `remaining` meets the next layer, and after the last meeting walks
through what is left. -/
theorem TransGen.through_layer {as : Arrows} {remaining latest : List String} {x y : String}
    (hx : x ∈ latest) (h : TransGen (ArrowInto as remaining) x y) :
    y ∈ remaining.filter (as.step latest).contains ∨
      ∃ z ∈ remaining.filter (as.step latest).contains,
        TransGen (ArrowInto as (unreached remaining (as.step latest))) z y := by
  induction h with
  | single hxy =>
    refine Or.inl (List.mem_filter.mpr ⟨hxy.2, ?_⟩)
    exact List.contains_iff_mem.mpr (Arrows.mem_step.mpr ⟨x, hx, hxy.1⟩)
  | @tail b c _ hbc ih =>
    by_cases hc : c ∈ as.step latest
    · exact Or.inl (List.mem_filter.mpr ⟨hbc.2, List.contains_iff_mem.mpr hc⟩)
    · have hstep : ArrowInto as (unreached remaining (as.step latest)) b c :=
        ⟨hbc.1, mem_unreached.mpr ⟨hbc.2, hc⟩⟩
      rcases ih with hb | ⟨z, hz, hzb⟩
      · exact Or.inr ⟨b, hb, TransGen.single hstep⟩
      · exact Or.inr ⟨z, hz, hzb.tail hstep⟩

/-- **Spreading lists the ends of the walks** that start in the layer and use the remaining
ids. -/
theorem mem_reachFrom {as : Arrows} {remaining latest : List String} {y : String} :
    y ∈ reachFrom as remaining latest ↔
      ∃ x ∈ latest, TransGen (ArrowInto as remaining) x y := by
  fun_induction reachFrom as remaining latest generalizing y with
  | case1 remaining latest layer =>
    rename_i h
    refine ⟨fun hy => absurd hy List.not_mem_nil, ?_⟩
    rintro ⟨x, hx, hxy⟩
    rcases TransGen.through_layer hx hxy with hy | ⟨z, hz, -⟩
    · exact h ▸ hy
    · exact absurd (h ▸ hz) List.not_mem_nil
  | case2 remaining latest layer x rest h =>
    rename_i ih
    rw [List.mem_append, ih, ← h]
    constructor
    · rintro (hy | ⟨z, hz, hzy⟩)
      · obtain ⟨hy, hlayer⟩ := List.mem_filter.mp hy
        obtain ⟨a, ha, hay⟩ := Arrows.mem_step.mp (List.contains_iff_mem.mp hlayer)
        exact ⟨a, ha, TransGen.single ⟨hay, hy⟩⟩
      · obtain ⟨hz, hlayer⟩ := List.mem_filter.mp hz
        obtain ⟨a, ha, haz⟩ := Arrows.mem_step.mp (List.contains_iff_mem.mp hlayer)
        refine ⟨a, ha, TransGen.head ⟨haz, hz⟩ (TransGen.mono ?_ _ _ hzy)⟩
        exact fun _ _ hab => ⟨hab.1, (mem_unreached.mp hab.2).1⟩
    · rintro ⟨a, ha, hay⟩
      exact TransGen.through_layer ha hay

/-! ## Walks -/

/-- A walk to another end can be cut at its last visit to its start. -/
theorem TransGen.avoiding_start {α : Type} {r : α → α → Prop} {a b : α} (h : TransGen r a b)
    (hne : b ≠ a) : TransGen (fun x y => r x y ∧ y ≠ a) a b := by
  induction h with
  | single hab => exact TransGen.single ⟨hab, hne⟩
  | @tail c d _ hcd ih =>
    by_cases hc : c = a
    · exact TransGen.single ⟨hc ▸ hcd, hne⟩
    · exact (ih hc).tail ⟨hcd, hne⟩

namespace Graph

/-- **A walk of at least one edge** leads from one id to another. -/
def Reaches (g : Graph) : String → String → Prop := TransGen g.Leads

theorem Reaches.trans {g : Graph} {a b c : String} (hab : g.Reaches a b) (hbc : g.Reaches b c) :
    g.Reaches a c := TransGen.trans hab hbc

theorem Reaches.mono {g k : Graph} (h : ∀ {a b}, g.Leads a b → k.Leads a b) {a b : String}
    (hab : g.Reaches a b) : k.Reaches a b := TransGen.mono (fun _ _ => h) _ _ hab

theorem WellFormed.reaches_mem {g : Graph} (h : g.WellFormed) {a b : String}
    (hab : g.Reaches a b) : a ∈ g.ids ∧ b ∈ g.ids := by
  induction hab with
  | single hab => exact ⟨h.source_mem hab, h.target_mem hab⟩
  | tail _ hbc ih => exact ⟨ih.1, h.target_mem hbc⟩

theorem mem_reversed {g : Graph} {a b : String} :
    (a, b) ∈ g.arrows.reversed ↔ g.Leads b a := by
  simp [Arrows.reversed, ← mem_arrows]

/-- The closure of an id under arrows between nodes. -/
theorem mem_closure {g : Graph} {as : Arrows} (has : ∀ {a b}, (a, b) ∈ as → b ∈ g.ids)
    {x y : String} :
    y ∈ g.closure as x ↔ x ∈ g.ids ∧ y ≠ x ∧ TransGen (fun a b => (a, b) ∈ as) x y := by
  unfold closure
  split
  · next hx =>
    rw [Ascending.mem_ofList, mem_reachFrom]
    simp only [List.mem_singleton, exists_eq_left, hasNode_iff.mp hx, true_and]
    constructor
    · intro h
      obtain ⟨_, _, hlast⟩ := TransGen.tail'_iff.mp h
      refine ⟨by simpa using (List.mem_filter.mp hlast.2).2, TransGen.mono ?_ _ _ h⟩
      exact fun _ _ hab => hab.1
    · rintro ⟨hne, h⟩
      refine TransGen.mono (fun a b hab => ⟨hab.1, ?_⟩) _ _ (TransGen.avoiding_start h hne)
      exact List.mem_filter.mpr ⟨has hab.1, by simpa using hab.2⟩
  · next hx =>
    rw [hasNode_iff] at hx
    simp [hx]

namespace WellFormed

variable {g : Graph} (h : g.WellFormed)

include h

/-- **The dependencies of an id are the other ids that it reaches.** -/
theorem mem_allDependencies {x y : String} :
    y ∈ g.allDependencies x ↔ y ≠ x ∧ g.Reaches x y := by
  have hr : (fun a b => (a, b) ∈ g.arrows) = g.Leads :=
    funext fun _ => funext fun _ => propext mem_arrows
  rw [allDependencies, mem_closure (fun hab => h.target_mem (mem_arrows.mp hab)), hr]
  exact ⟨fun hy => hy.2, fun hy => ⟨(h.reaches_mem hy.2).1, hy⟩⟩

/-- **The dependents of an id are the other ids that reach it.** -/
theorem mem_allDependents {x y : String} :
    y ∈ g.allDependents x ↔ y ≠ x ∧ g.Reaches y x := by
  have hr : (fun a b => (a, b) ∈ g.arrows.reversed) = Function.swap g.Leads :=
    funext fun _ => funext fun _ => propext mem_reversed
  rw [allDependents, mem_closure (fun hab => h.source_mem (mem_reversed.mp hab)), hr, transGen_swap]
  exact ⟨fun hy => hy.2, fun hy => ⟨(h.reaches_mem hy.2).2, hy⟩⟩

end WellFormed

end Graph

end CsdlAudit
