import Mathlib.Data.List.Perm.Basic
import CsdlAudit.Proofs.Graph.Components
import CsdlAudit.Proofs.Graph.Order
import CsdlAudit.Proofs.Graph.ScanCover
import CsdlAudit.Proofs.Graph.ScanSteps

/-!
# The views of the cycles agree

Three queries tell of the cycles of a graph: the scan reports closed paths, the components group the
ids that reach each other, and an order of the nodes is given if there is one. This module brings
what is known of each together. All ids of a cycle are mutual, so a cycle lies inside one component
(`Graph.WellFormed.exists_component_of_isCycle`), and the scan closes a cycle in each
(`Graph.WellFormed.exists_cycle_of_component`). There is no component just when no node reaches
itself, which is when there is an order (`Graph.WellFormed.isSome_order?_iff_components`).
-/

namespace CsdlAudit.Graph

open Relation

variable {g : Graph}

/-! ## Cycles -/

namespace IsCycle

variable {c d : List String}

/-- A cycle is closed by the id that it starts with. -/
theorem eq_cons_concat (h : g.IsCycle c) :
    ∃ x y mid, c = x :: y :: mid ++ [x] ∧ c.dropLast = x :: y :: mid := by
  have hlen := h.two_le
  have hclosed := h.closed
  rcases List.eq_nil_or_concat' c with rfl | ⟨front, last, rfl⟩
  · simp at hlen
  · rw [List.dropLast_concat] at hlen
    match front, hlen with
    | x :: y :: mid, _ =>
      rw [List.getLast?_concat, List.cons_append, List.head?_cons] at hclosed
      rw [Option.some.inj hclosed]
      exact ⟨last, y, mid, rfl, List.dropLast_concat⟩

/-- A cycle is told by its ids up to the last one. -/
theorem eq_of_dropLast_eq (hc : g.IsCycle c) (hd : g.IsCycle d) (h : c.dropLast = d.dropLast) :
    c = d := by
  obtain ⟨x, y, mid, hc, hcl⟩ := hc.eq_cons_concat
  obtain ⟨u, v, mid', hd, hdl⟩ := hd.eq_cons_concat
  rw [hcl, hdl] at h
  obtain ⟨rfl, htail⟩ := List.cons.inj h
  rw [hc, hd, htail]

/-- **The ids of a cycle reach each other.** -/
theorem mutual_of_mem (h : g.IsCycle c) {a b : String} (ha : a ∈ c) (hb : b ∈ c) :
    g.Mutual a b := by
  obtain ⟨x, y, mid, hc, -⟩ := h.eq_cons_concat
  have : Trans g.Reaches g.Reaches g.Reaches := ⟨Reaches.trans⟩
  have hpair : (x :: y :: mid ++ [x]).Pairwise g.Reaches :=
    hc ▸ (h.chain.imp (fun _ _ hab => TransGen.single hab)).pairwise
  -- the id that closes the cycle stands at both ends, so it reaches all and all reach it
  have hto : ∀ z ∈ c, g.Reaches x z := by
    intro z hz
    have htail : ∀ z ∈ y :: mid ++ [x], g.Reaches x z :=
      fun z hz => List.rel_of_pairwise_cons hpair hz
    rw [hc, List.cons_append] at hz
    rcases List.mem_cons.mp hz with rfl | hz
    · exact htail z (by simp)
    · exact htail z hz
  have hfrom : ∀ z ∈ c, g.Reaches z x := by
    intro z hz
    have hfront : ∀ z ∈ x :: y :: mid, g.Reaches z x :=
      fun z hz => (List.pairwise_append.mp hpair).2.2 z hz x (List.mem_singleton_self x)
    rw [hc] at hz
    rcases List.mem_append.mp hz with hz | hz
    · exact hfront z hz
    · exact List.mem_singleton.mp hz ▸ hfront x List.mem_cons_self
  exact ⟨(hfrom a ha).trans (hto b hb), (hfrom b hb).trans (hto a ha)⟩

end IsCycle

/-! ## The reports -/

theorem mem_cycles {c : List String} :
    c ∈ g.cycles ↔ c ∈ g.cyclesFrom g.sortedIds [] ∨ ∃ a ∈ g.selfIds, c = [a, a] := by
  simp [cycles, selfIds, eq_comm]

/-- A closed path of one step is no cycle. -/
theorem not_isCycle_pair (a : String) : ¬g.IsCycle [a, a] := by
  intro h
  have : 2 ≤ [a].length := h.two_le
  rw [List.length_singleton] at this
  exact absurd this (by decide)

namespace WellFormed

variable (h : g.WellFormed)

include h

/-- A report is a cycle or a noted self reference. -/
theorem isCycle_or_self {c : List String} (hc : c ∈ g.cycles) :
    g.IsCycle c ∨ ∃ a ∈ g.selfIds, c = [a, a] :=
  (mem_cycles.mp hc).imp_left (fun hc => (Scanning.initial g).isCycle_of_mem h hc)

/-- **No two reports of the scan are one cycle**: rotations of each other would have their ids in
one order, that of the visits, and so be equal. -/
theorem pairwise_not_isRotated_scan :
    (g.cyclesFrom g.sortedIds []).Pairwise
      (fun c d => ¬c.dropLast.IsRotated d.dropLast) := by
  have hscan := Scanning.initial g
  obtain ⟨visits, hnodup, -, hsub⟩ := hscan.exists_visits
  refine hscan.nodup_cyclesFrom.imp_of_mem ?_
  intro c d hc hd hne hrot
  have heq := (hnodup.perm_iff_eq_of_sublist (hsub c hc) (hsub d hd)).mp hrot.perm
  exact hne ((hscan.isCycle_of_mem h hc).eq_of_dropLast_eq (hscan.isCycle_of_mem h hd) heq)

theorem pairwise_not_isRotated :
    g.cycles.Pairwise (fun c d => ¬c.dropLast.IsRotated d.dropLast) := by
  rw [cycles]
  refine List.pairwise_append.mpr ⟨h.pairwise_not_isRotated_scan, ?_, ?_⟩
  · refine List.pairwise_map.mpr (List.Pairwise.imp ?_ (List.pairwise_map.mp h.nodup_selfIds))
    intro r s hne hrot
    exact hne (by simpa using hrot.perm)
  · -- a cycle has two ids at least, the report of a self reference only one
    intro c hc d hd hrot
    obtain ⟨r, -, rfl⟩ := List.mem_map.mp hd
    have hlen := ((Scanning.initial g).isCycle_of_mem h hc).two_le
    rw [hrot.perm.length_eq] at hlen
    simp at hlen

/-- **A noted self reference is reported once.** -/
theorem count_self {a : String} (ha : a ∈ g.selfIds) : g.cycles.count [a, a] = 1 := by
  have hnodup : g.cycles.Nodup := h.pairwise_not_isRotated.imp
    (fun {c d} (hnot : ¬c.dropLast.IsRotated d.dropLast) (e : c = d) =>
      hnot (e ▸ List.IsRotated.refl _))
  exact List.count_eq_one_of_mem hnodup (mem_cycles.mpr (Or.inr ⟨a, ha, rfl⟩))

/-! ## Cycles and components -/

/-- **A cycle lies inside one component.** -/
theorem exists_component_of_isCycle {c : List String} (hc : g.IsCycle c) :
    ∃ group ∈ g.components, c ⊆ group := by
  obtain ⟨x, y, mid, heq, hfront⟩ := hc.eq_cons_concat
  have hx : x ∈ c := by simp [heq]
  have hy : y ∈ c := by simp [heq]
  have hne : x ≠ y := by
    have := hc.nodup
    rw [hfront] at this
    exact fun e => this.notMem (e ▸ List.mem_cons_self)
  obtain ⟨group, hgroup, hxg, -⟩ := h.exists_component hne (hc.mutual_of_mem hx hy)
  exact ⟨group, hgroup, fun z hz =>
    (h.mem_component_iff hgroup hxg z).mpr (Or.inr (hc.mutual_of_mem hx hz))⟩

/-- **The scan closes a cycle in every component.** -/
theorem exists_cycle_of_component {group : List String} (hgroup : group ∈ g.components) :
    ∃ c ∈ g.cycles, g.IsCycle c ∧ c ⊆ group := by
  obtain ⟨a, ha, b, -, -, hab⟩ := h.exists_mutual_of_component hgroup
  have hscan := Scanning.initial g
  obtain ⟨c, hc, y, hay, hlast⟩ := hscan.exists_report (hab.trans hab.symm)
    (fun y hay => mem_sortedIds.mpr (h.reaches_mem hay.1).2)
  have hcycle := hscan.isCycle_of_mem h hc
  refine ⟨c, mem_cycles.mpr (Or.inl hc), hcycle, fun z hz => ?_⟩
  have hyz := hcycle.mutual_of_mem (List.mem_of_getLast? hlast) hz
  exact (h.mem_component_iff hgroup ha z).mpr (Or.inr (hay.trans hyz))

/-- **An id that reaches itself is in a component.** -/
theorem exists_component_of_reaches {a : String} (haa : g.Reaches a a) :
    ∃ group ∈ g.components, a ∈ group := by
  -- the first step leaves the id, as no edge joins a node to itself
  obtain ⟨b, hab, hba⟩ := TransGen.head'_iff.mp haa
  have hne : a ≠ b := h.ne_of_leads hab
  have hba : g.Reaches b a := (reflTransGen_iff_eq_or_transGen.mp hba).resolve_left hne
  obtain ⟨group, hgroup, hag, -⟩ := h.exists_component hne ⟨TransGen.single hab, hba⟩
  exact ⟨group, hgroup, hag⟩

/-- **There is an order just when there is no component.** -/
theorem isSome_order?_iff_components : g.order?.isSome = true ↔ g.components = [] := by
  rw [isSome_order?_iff h]
  constructor
  · intro hacyclic
    refine List.eq_nil_iff_forall_not_mem.mpr (fun group hgroup => ?_)
    obtain ⟨a, -, b, -, -, hab⟩ := h.exists_mutual_of_component hgroup
    exact hacyclic a (hab.1.trans hab.2)
  · intro hnone a haa
    obtain ⟨group, hgroup, -⟩ := h.exists_component_of_reaches haa
    rw [hnone] at hgroup
    exact List.not_mem_nil hgroup

/-- **There is no component just when the reports are self references only.** -/
theorem components_eq_nil_iff :
    g.components = [] ↔ ∀ c ∈ g.cycles, ∃ a ∈ g.selfIds, c = [a, a] := by
  constructor
  · intro hnone c hc
    refine (h.isCycle_or_self hc).resolve_left (fun hcycle => ?_)
    obtain ⟨group, hgroup, -⟩ := h.exists_component_of_isCycle hcycle
    rw [hnone] at hgroup
    exact List.not_mem_nil hgroup
  · intro hself
    refine List.eq_nil_iff_forall_not_mem.mpr (fun group hgroup => ?_)
    obtain ⟨c, hc, hcycle, -⟩ := h.exists_cycle_of_component hgroup
    obtain ⟨a, -, rfl⟩ := hself c hc
    exact not_isCycle_pair a hcycle

/-- **An id that reaches itself is on a cycle that is reported.** -/
theorem cycles_ne_nil_of_reaches {a : String} (haa : g.Reaches a a) : g.cycles ≠ [] := by
  obtain ⟨group, hgroup, -⟩ := h.exists_component_of_reaches haa
  obtain ⟨c, hc, -⟩ := h.exists_cycle_of_component hgroup
  exact List.ne_nil_of_mem hc

end WellFormed

/-- A self reference is reported. -/
theorem cycles_ne_nil_of_self {a : String} (ha : a ∈ g.selfIds) : g.cycles ≠ [] :=
  List.ne_nil_of_mem (mem_cycles.mpr (Or.inr ⟨a, ha, rfl⟩))

/-! ## The views together -/

/-- **What the queries for cycles say of a graph**, each by itself and together. -/
structure CyclesAgree (g : Graph) : Prop where
  /-- A report is a cycle, or the closed path of one step of an id that refers to itself. -/
  sound : ∀ c ∈ g.cycles, g.IsCycle c ∨ ∃ a ∈ g.selfIds, c = [a, a]
  /-- An id that refers to itself is reported once. -/
  self_once : ∀ a ∈ g.selfIds, g.cycles.count [a, a] = 1
  /-- No two reports are one cycle with different starts. -/
  not_rotated : g.cycles.Pairwise (fun c d => ¬c.dropLast.IsRotated d.dropLast)
  /-- A reported cycle lies inside one component. -/
  inside : ∀ c ∈ g.cycles, g.IsCycle c → ∃ group ∈ g.components, c ⊆ group
  /-- Each component has a reported cycle. -/
  covered : ∀ group ∈ g.components, ∃ c ∈ g.cycles, g.IsCycle c ∧ c ⊆ group
  /-- A component ascends and has two members at least, all of them nodes. -/
  groups : ∀ group ∈ g.components,
    group.Pairwise (· < ·) ∧ 2 ≤ group.length ∧ group ⊆ g.ids
  /-- No two components share a member. -/
  disjoint : g.components.Pairwise List.Disjoint
  /-- However the classes are found, those of more than one member, put in order, are the
  components. -/
  divided : (∃ classes, g.Division classes) ∧ ∀ classes groups, g.Division classes →
    groups.Perm ((classes.filter fun c => 1 < c.length).map Ascending.ofList) →
    groups.Pairwise (· ≤ ·) → groups = g.components
  /-- Different ids share a component just when each is a dependency of the other. -/
  classes : ∀ a b, a ≠ b → ((∃ group ∈ g.components, a ∈ group ∧ b ∈ group) ↔
    b ∈ g.allDependencies a ∧ a ∈ g.allDependencies b)
  /-- Without components the walk lists each node once, dependencies before dependents, whether or
  not this is checked at its end. -/
  finished : g.components = [] → (g.finishFrom g.ids [] []).Perm g.ids ∧
    ∀ a b, g.Leads a b → (g.finishFrom g.ids [] []).idxOf b < (g.finishFrom g.ids [] []).idxOf a
  /-- There is an order just when there is no component. -/
  order_iff : g.order?.isSome = true ↔ g.components = []
  /-- There is no component just when the reports are self references only. -/
  acyclic_iff : g.components = [] ↔ ∀ c ∈ g.cycles, ∃ a ∈ g.selfIds, c = [a, a]
  /-- An order lists every node once, dependencies before dependents. -/
  ordered : ∀ list, g.order? = some list →
    list.Perm g.ids ∧ list.Nodup ∧ ∀ a b, g.Leads a b → list.idxOf b < list.idxOf a
  /-- Step by step the scan comes to an end, with the reports but for the self references. -/
  halts : ∃ t, ReflTransGen (fun s t => g.scanStep s = some t) g.scanStart t ∧
    g.scanStep t = none ∧ g.cycles = t.found ++ g.selfIds.map (fun a => [a, a])

/-- **The views of the cycles agree on every graph**, in whatever order it was put together. -/
theorem cyclesAgree_assemble (additions : List Addition) :
    (assemble additions).CyclesAgree where
  sound := fun _ hc => (wellFormed_assemble additions).isCycle_or_self hc
  self_once := fun _ ha => (wellFormed_assemble additions).count_self ha
  not_rotated := (wellFormed_assemble additions).pairwise_not_isRotated
  inside := fun _ _ hcycle => (wellFormed_assemble additions).exists_component_of_isCycle hcycle
  covered := fun _ hgroup => (wellFormed_assemble additions).exists_cycle_of_component hgroup
  groups := by
    intro group hgroup
    have h := wellFormed_assemble additions
    refine ⟨(pairwise_component hgroup).1, (pairwise_component hgroup).2, fun x hx => ?_⟩
    obtain ⟨a, ha, b, -, -, hab⟩ := h.exists_mutual_of_component hgroup
    rcases (h.mem_component_iff hgroup ha x).mp hx with rfl | hax
    · exact (h.reaches_mem hab.1).1
    · exact (h.reaches_mem hax.1).2
  disjoint := (wellFormed_assemble additions).pairwise_disjoint_components
  divided := by
    have h := wellFormed_assemble additions
    exact ⟨h.exists_division, fun _ _ hd hperm hsorted => hd.eq_components h hperm hsorted⟩
  classes := by
    intro a b hne
    have h := wellFormed_assemble additions
    rw [← h.mutual_iff_components hne, h.mem_allDependencies, h.mem_allDependencies]
    exact ⟨fun hab => ⟨⟨hne.symm, hab.1⟩, hne, hab.2⟩, fun hab => ⟨hab.1.2, hab.2.2⟩⟩
  finished := by
    intro hnone
    have h := wellFormed_assemble additions
    have hacyclic := (isSome_order?_iff h).mp (h.isSome_order?_iff_components.mpr hnone)
    exact ⟨perm_finishFrom h, fun _ _ hab => idxOf_finishFrom_lt h hacyclic hab⟩
  order_iff := (wellFormed_assemble additions).isSome_order?_iff_components
  acyclic_iff := (wellFormed_assemble additions).components_eq_nil_iff
  ordered := by
    intro list hlist
    have h := wellFormed_assemble additions
    obtain ⟨hperm, hbefore⟩ := order?_spec h hlist
    exact ⟨hperm, hperm.nodup_iff.mpr h.nodup_ids, fun _ _ hab => hbefore hab⟩
  halts := by
    obtain ⟨t, hsteps, hhalt, hfound⟩ := exists_halting_scan (wellFormed_assemble additions)
    refine ⟨t, hsteps, hhalt, ?_⟩
    rw [hfound, cycles, selfIds, List.map_map]
    rfl

end CsdlAudit.Graph
