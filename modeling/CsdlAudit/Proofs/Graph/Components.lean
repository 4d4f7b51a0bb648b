import Mathlib.Data.List.Dedup
import Mathlib.Data.List.Lex
import CsdlAudit.Proofs.Ascending
import CsdlAudit.Proofs.Graph.Closure

/-!
# The components are the classes of mutual reachability

Two ids are *mutual* when each reaches the other, and of one class when they are mutual or equal.
The companions of an id are the other members of its class. A component is listed at its least
member, as that member with its companions; so it is a whole class
(`Graph.WellFormed.mem_component_iff`), two different ids stand in one component just when they are
mutual (`Graph.WellFormed.mutual_iff_components`), and no two components share a member.

It does not matter how the classes are found. Whatever divides the nodes into their classes, the
classes of more than one member are the components, once they and their members are put in order
(`Graph.Division.eq_components`).
-/

namespace CsdlAudit.Graph

/-- **Each of two ids reaches the other.** -/
def Mutual (g : Graph) (a b : String) : Prop := g.Reaches a b ∧ g.Reaches b a

/-- Two ids are equal or mutual. -/
def SameClass (g : Graph) (a b : String) : Prop := a = b ∨ g.Mutual a b

theorem Mutual.symm {g : Graph} {a b : String} (h : g.Mutual a b) : g.Mutual b a := ⟨h.2, h.1⟩

theorem Mutual.trans {g : Graph} {a b c : String} (hab : g.Mutual a b) (hbc : g.Mutual b c) :
    g.Mutual a c :=
  ⟨hab.1.trans hbc.1, hbc.2.trans hab.2⟩

namespace SameClass

variable {g : Graph} {a b c : String}

theorem symm (h : g.SameClass a b) : g.SameClass b a := h.imp Eq.symm Mutual.symm

theorem trans (hab : g.SameClass a b) (hbc : g.SameClass b c) : g.SameClass a c := by
  rcases hab with rfl | hab
  · exact hbc
  · rcases hbc with rfl | hbc
    · exact Or.inr hab
    · exact Or.inr (hab.trans hbc)

end SameClass

theorem pairwise_closure (g : Graph) (as : Arrows) (id : String) :
    (g.closure as id).Pairwise (· < ·) := by
  unfold closure
  split
  · exact Ascending.pairwise_lt_ofList _
  · exact List.Pairwise.nil

theorem pairwise_companions (g : Graph) (id : String) : (g.companions id).Pairwise (· < ·) :=
  (pairwise_closure g g.arrows id).filter _

/-- What an id contributes to the list of components: nothing, or itself with its companions if it
is the least of them. -/
theorem component_eq_some {g : Graph} {id : String} {group : List String} :
    (match g.companions id with
      | [] => none
      | others => if others.all (fun y => decide (id < y)) then some (id :: others) else none)
        = some group ↔
      group = id :: g.companions id ∧ g.companions id ≠ [] ∧ ∀ y ∈ g.companions id, id < y := by
  cases h : g.companions id with
  | nil => simp
  | cons c others =>
    simp only [List.all_eq_true, decide_eq_true_eq, Option.ite_none_right_eq_some,
      Option.some.injEq, ne_eq, reduceCtorEq, not_false_eq_true, true_and]
    exact ⟨fun hg => ⟨hg.2.symm, hg.1⟩, fun hg => ⟨hg.2, hg.1.symm⟩⟩

/-- A component is an id with its companions, all of them larger. -/
theorem mem_components {g : Graph} {group : List String} :
    group ∈ g.components ↔
      ∃ id ∈ g.ids, group = id :: g.companions id ∧ g.companions id ≠ [] ∧
        ∀ y ∈ g.companions id, id < y := by
  simp only [components, List.mem_filterMap, mem_sortedIds]
  exact exists_congr (fun id => and_congr_right (fun _ => component_eq_some))

/-- The components stand in the order of their least members. -/
theorem pairwise_lt_components (g : Graph) : g.components.Pairwise (· < ·) := by
  refine List.Pairwise.filterMap _ ?_ (Ascending.pairwise_lt_ofList g.ids)
  intro a b hab ga hga gb hgb
  obtain ⟨rfl, -, -⟩ := component_eq_some.mp hga
  obtain ⟨rfl, -, -⟩ := component_eq_some.mp hgb
  exact List.Lex.rel hab

/-- The members of a component ascend, and there are at least two. -/
theorem pairwise_component {g : Graph} {group : List String} (hg : group ∈ g.components) :
    group.Pairwise (· < ·) ∧ 2 ≤ group.length := by
  obtain ⟨id, -, rfl, hne, hless⟩ := mem_components.mp hg
  refine ⟨List.pairwise_cons.mpr ⟨hless, pairwise_companions g id⟩, ?_⟩
  have := List.length_pos_iff.mpr hne
  rw [List.length_cons]
  omega

namespace WellFormed

variable {g : Graph} (h : g.WellFormed)

include h

theorem mem_companions {x y : String} : y ∈ g.companions x ↔ y ≠ x ∧ g.Mutual x y := by
  simp only [companions, List.mem_filter, List.contains_iff_mem, h.mem_allDependencies,
    h.mem_allDependents]
  exact ⟨fun hy => ⟨hy.1.1, hy.1.2, hy.2.2⟩, fun hy => ⟨⟨hy.1, hy.2.1⟩, hy.1, hy.2.2⟩⟩

/-- An id with its companions is its class. -/
theorem mem_cons_companions {x y : String} : y ∈ x :: g.companions x ↔ g.SameClass x y := by
  rw [List.mem_cons, h.mem_companions, SameClass, eq_comm (a := x)]
  by_cases hne : y = x <;> simp [hne]

/-- **A component is a whole class**: with one member it has exactly that member's class. -/
theorem mem_component_iff {group : List String} (hg : group ∈ g.components) {a : String}
    (ha : a ∈ group) (b : String) : b ∈ group ↔ g.SameClass a b := by
  obtain ⟨id, -, rfl, -, -⟩ := mem_components.mp hg
  rw [h.mem_cons_companions] at ha ⊢
  exact ⟨ha.symm.trans, ha.trans⟩

/-- Mutual ids have a component in common: the one that is listed at the least id of their
class. -/
theorem exists_component {a b : String} (hne : a ≠ b) (hab : g.Mutual a b) :
    ∃ group ∈ g.components, a ∈ group ∧ b ∈ group := by
  have hclass : ∀ x, x ∈ Ascending.ofList (a :: g.companions a) ↔ g.SameClass a x :=
    fun x => Ascending.mem_ofList.trans h.mem_cons_companions
  have hasc := Ascending.pairwise_lt_ofList (a :: g.companions a)
  match hl : Ascending.ofList (a :: g.companions a) with
  | [] => exact absurd ((hclass a).mpr (Or.inl rfl)) (by simp [hl])
  | m :: rest =>
    rw [hl] at hclass hasc
    have ham : g.SameClass a m := (hclass m).mp List.mem_cons_self
    have ha := h.mem_cons_companions.mpr ham.symm
    have hb := h.mem_cons_companions.mpr (ham.symm.trans (Or.inr hab))
    have hmem : m ∈ g.ids := by
      rcases ham with rfl | ham
      · exact (h.reaches_mem hab.1).1
      · exact (h.reaches_mem ham.1).2
    have hmore : g.companions m ≠ [] := by
      intro hnil
      rw [hnil, List.mem_singleton] at ha hb
      exact hne (ha.trans hb.symm)
    have hless : ∀ y ∈ g.companions m, m < y := by
      intro y hy
      obtain ⟨hym, hmy⟩ := h.mem_companions.mp hy
      have hrest := (List.mem_cons.mp ((hclass y).mpr (ham.trans (Or.inr hmy)))).resolve_left hym
      exact List.rel_of_pairwise_cons hasc hrest
    exact ⟨_, mem_components.mpr ⟨m, hmem, rfl, hmore, hless⟩, ha, hb⟩

/-- **Different ids are mutual just when they share a component.** -/
theorem mutual_iff_components {a b : String} (hne : a ≠ b) :
    g.Mutual a b ↔ ∃ group ∈ g.components, a ∈ group ∧ b ∈ group := by
  refine ⟨h.exists_component hne, ?_⟩
  rintro ⟨group, hg, ha, hb⟩
  exact ((h.mem_component_iff hg ha b).mp hb).resolve_left hne

/-- Every component has two ids that are mutual. -/
theorem exists_mutual_of_component {group : List String} (hgroup : group ∈ g.components) :
    ∃ a ∈ group, ∃ b ∈ group, a ≠ b ∧ g.Mutual a b := by
  obtain ⟨hasc, hlen⟩ := pairwise_component hgroup
  match group, hlen with
  | a :: b :: rest, _ =>
    have ha : a ∈ a :: b :: rest := List.mem_cons_self
    have hb : b ∈ a :: b :: rest := List.mem_cons_of_mem _ List.mem_cons_self
    have hne : a ≠ b := ne_of_lt (List.rel_of_pairwise_cons hasc List.mem_cons_self)
    exact ⟨a, ha, b, hb, hne, (h.mutual_iff_components hne).mpr ⟨_, hgroup, ha, hb⟩⟩

/-- **No two components share a member.** -/
theorem pairwise_disjoint_components : g.components.Pairwise List.Disjoint := by
  refine List.Pairwise.filterMap _ ?_ (Ascending.pairwise_lt_ofList g.ids)
  intro a b hab ga hga gb hgb x hxa hxb
  obtain ⟨rfl, -, -⟩ := component_eq_some.mp hga
  obtain ⟨rfl, -, hless⟩ := component_eq_some.mp hgb
  rw [h.mem_cons_companions] at hxa hxb
  -- the larger of the two would be the least of a class that has the smaller one
  rcases List.mem_cons.mp (h.mem_cons_companions.mpr (hxb.trans hxa.symm)) with rfl | ha
  · exact lt_irrefl _ hab
  · exact lt_asymm hab (hless a ha)

end WellFormed

/-! ## Divisions into classes -/

/-- **A division of the nodes into their classes**, the classes and their members in any order. -/
structure Division (g : Graph) (classes : List (List String)) : Prop where
  /-- Each node is in one of them. -/
  cover : ∀ {id}, id ∈ g.ids → ∃ c ∈ classes, id ∈ c
  /-- Each of them is a whole class. -/
  whole : ∀ {c}, c ∈ classes → ∀ {a b}, a ∈ c → (b ∈ c ↔ g.SameClass a b)
  /-- None of them lists an id twice. -/
  nodup : ∀ {c}, c ∈ classes → c.Nodup
  /-- No two of them share a member. -/
  disjoint : classes.Pairwise List.Disjoint

namespace Division

variable {g : Graph} {classes groups : List (List String)}

/-- The classes of more than one member, each ascending, are the components. -/
theorem mem_components_iff (hd : g.Division classes) (hg : g.WellFormed) {group : List String} :
    group ∈ (classes.filter fun c => 1 < c.length).map Ascending.ofList ↔
      group ∈ g.components := by
  -- a class and a component are the same set as soon as they share a member
  have same : ∀ {c a group}, c ∈ classes → group ∈ g.components → a ∈ c → a ∈ group →
      Ascending.ofList c = group := by
    intro c a group hc hgroup hac hag
    refine Ascending.eq_of_mem_iff (Ascending.pairwise_lt_ofList c)
      (pairwise_component hgroup).1 fun x => ?_
    rw [Ascending.mem_ofList, hd.whole hc hac, hg.mem_component_iff hgroup hag]
  simp only [List.mem_map, List.mem_filter, decide_eq_true_eq]
  constructor
  · rintro ⟨c, ⟨hc, hlen⟩, rfl⟩
    match c, hlen with
    | a :: b :: rest, _ =>
      have hab : g.SameClass a b := (hd.whole hc List.mem_cons_self).mp (by simp)
      have hne : a ≠ b := fun e => (hd.nodup hc).notMem (e ▸ List.mem_cons_self)
      obtain ⟨group, hgroup, ha, -⟩ := hg.exists_component hne (hab.resolve_left hne)
      exact same hc hgroup List.mem_cons_self ha ▸ hgroup
  · intro hgroup
    obtain ⟨a, ha, b, hb, hne, hab⟩ := hg.exists_mutual_of_component hgroup
    obtain ⟨c, hc, hac⟩ := hd.cover (hg.reaches_mem hab.1).1
    have hbc : b ∈ c := (hd.whole hc hac).mpr (Or.inr hab)
    have hlen : 1 < c.length := by
      match c, hac, hbc with
      | [x], hac, hbc =>
        rw [List.mem_singleton] at hac hbc
        exact absurd (hac.trans hbc.symm) hne
      | _ :: _ :: _, _, _ => simp
    exact ⟨c, ⟨hc, hlen⟩, same hc hgroup hac ha⟩

/-- **Every division comes to the components**, when its classes of one member are left out, and
the others and their members are put in order. -/
theorem eq_components (hd : g.Division classes) (hg : g.WellFormed)
    (hperm : groups.Perm ((classes.filter fun c => 1 < c.length).map Ascending.ofList))
    (hsorted : groups.Pairwise (· ≤ ·)) : groups = g.components := by
  have hnodup : ((classes.filter fun c => 1 < c.length).map Ascending.ofList).Nodup := by
    refine List.pairwise_map.mpr ((hd.disjoint.filter _).imp_of_mem ?_)
    intro c d hc _ hdisjoint he
    have hlen : 1 < c.length := by simpa using (List.mem_filter.mp hc).2
    obtain ⟨a, ha⟩ := List.exists_mem_of_length_pos (Nat.zero_lt_of_lt hlen)
    exact hdisjoint ha (Ascending.mem_ofList.mp (he ▸ Ascending.mem_ofList.mpr ha))
  have hlt := pairwise_lt_components g
  have hmem : groups.Perm g.components := by
    refine (List.perm_ext_iff_of_nodup (hperm.nodup_iff.mpr hnodup) (hlt.imp ne_of_lt)).mpr ?_
    exact fun group => hperm.mem_iff.trans (hd.mem_components_iff hg)
  exact hmem.eq_of_pairwise (fun _ _ _ _ => le_antisymm) hsorted (hlt.imp le_of_lt)

end Division

/-- **There is a division**: the class of each node, listed once. -/
theorem WellFormed.exists_division {g : Graph} (h : g.WellFormed) :
    ∃ classes, g.Division classes := by
  have hclass : ∀ {c}, c ∈ (g.sortedIds.map fun id => Ascending.ofList (id :: g.companions id)) →
      c.Pairwise (· < ·) ∧ ∃ id, ∀ x, x ∈ c ↔ g.SameClass id x := by
    intro c hc
    obtain ⟨id, -, rfl⟩ := List.mem_map.mp hc
    refine ⟨Ascending.pairwise_lt_ofList _, id, fun x => ?_⟩
    exact Ascending.mem_ofList.trans h.mem_cons_companions
  refine ⟨(g.sortedIds.map fun id => Ascending.ofList (id :: g.companions id)).dedup, ?_, ?_, ?_,
    ?_⟩
  · intro id hid
    refine ⟨_, List.mem_dedup.mpr (List.mem_map.mpr ⟨id, mem_sortedIds.mpr hid, rfl⟩), ?_⟩
    exact Ascending.mem_ofList.mpr List.mem_cons_self
  · intro c hc a b ha
    obtain ⟨-, id, hmem⟩ := hclass (List.mem_dedup.mp hc)
    have hia : g.SameClass id a := (hmem a).mp ha
    rw [hmem]
    exact ⟨hia.symm.trans, hia.trans⟩
  · exact fun hc => (hclass (List.mem_dedup.mp hc)).1.imp ne_of_lt
  · refine (List.nodup_dedup _).imp_of_mem ?_
    intro c d hc hd hne x hxc hxd
    obtain ⟨hcasc, i, hci⟩ := hclass (List.mem_dedup.mp hc)
    obtain ⟨hdasc, j, hdj⟩ := hclass (List.mem_dedup.mp hd)
    have hij : g.SameClass i j := ((hci x).mp hxc).trans ((hdj x).mp hxd).symm
    refine hne (Ascending.eq_of_mem_iff hcasc hdasc fun y => ?_)
    rw [hci, hdj]
    exact ⟨hij.symm.trans, hij.trans⟩

end CsdlAudit.Graph
