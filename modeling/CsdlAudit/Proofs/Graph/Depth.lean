import Mathlib.Data.List.Perm.Subperm
import Mathlib.Order.ConditionallyCompleteLattice.Basic
import Mathlib.Order.Lattice.Nat
import CsdlAudit.Proofs.Graph.Content

/-!
# The depth of a node is the greatest number of crossings

A walk *crosses* where an edge of it leads from one class of mutual reachability into another. The
depth of a node is the greatest number of crossings on a walk from it
(`Graph.WellFormed.isGreatest_depth`). Depths are found by following edges one step further at a
time, so after `k` rounds a node has what the walks of at most `k` edges give it
(`Graph.WellFormed.isGreatest_iterate_deepen`). That as many rounds as there are nodes are enough is
a matter of counting: take for each node the shortest walk that crosses most often. Behind its first
edge it is the shortest such walk of another node, so nodes have all lengths below its own.

What is known of depths follows from the walks: members of a class share their depth, a crossing
leads to a smaller one, and a node of depth `n + 1` has in its class an edge to a node of depth `n`.
-/

namespace CsdlAudit

open Relation

/-! ## Greatest numbers -/

theorem isGreatest_foldl_max (b : Nat) (ns : List Nat) :
    IsGreatest {n | n ∈ b :: ns} (ns.foldl max b) := by
  induction ns generalizing b with
  | nil => simp [IsGreatest, upperBounds]
  | cons n ns ih =>
    obtain ⟨hmem, hle⟩ := ih (max b n)
    refine ⟨?_, fun m hm => ?_⟩
    · rcases List.mem_cons.mp hmem with he | hns
      · rcases max_choice b n with hb | hn
        · exact List.mem_cons.mpr (Or.inl (he.trans hb))
        · exact List.mem_cons_of_mem b (List.mem_cons.mpr (Or.inl (he.trans hn)))
      · exact List.mem_cons_of_mem b (List.mem_cons_of_mem n hns)
    · have hmax : max b n ≤ ns.foldl max (max b n) := hle List.mem_cons_self
      rcases List.mem_cons.mp hm with rfl | hm
      · exact (le_max_left _ _).trans hmax
      · rcases List.mem_cons.mp hm with rfl | hm
        · exact (le_max_right _ _).trans hmax
        · exact hle (List.mem_cons_of_mem _ hm)

/-- Numbers that are taken step by step downwards are all taken, so they are fewer than what takes
them. -/
theorem lt_length_of_descends {α : Type} {as : List α} {f : α → Nat}
    (hdescends : ∀ a ∈ as, ∀ n, f a = n + 1 → ∃ b ∈ as, f b = n) {a : α} (ha : a ∈ as) :
    f a < as.length := by
  have htaken : ∀ n, ∀ a ∈ as, f a = n → List.range (n + 1) ⊆ as.map f := by
    intro n
    induction n with
    | zero =>
      intro a ha hn m hm
      exact List.mem_map.mpr ⟨a, ha, hn.trans (Nat.lt_one_iff.mp (List.mem_range.mp hm)).symm⟩
    | succ n ih =>
      intro a ha hn m hm
      rcases Nat.lt_succ_iff_lt_or_eq.mp (List.mem_range.mp hm) with hlt | rfl
      · obtain ⟨b, hb, hbn⟩ := hdescends a ha n hn
        exact ih b hb hbn (List.mem_range.mpr hlt)
      · exact List.mem_map.mpr ⟨a, ha, hn⟩
  have hcount := (List.nodup_range.subperm (htaken (f a) a ha rfl)).length_le
  rw [List.length_range, List.length_map] at hcount
  exact hcount

namespace Graph

/-- The member by which the class of an id is named. -/
def leastMember (g : Graph) (id : String) : String :=
  match g.companions id with
  | [] => id
  | least :: _ => if id < least then id else least

/-! ## Walks that cross -/

/-- **The depth of an id**, as the statistics have it. -/
def depth (g : Graph) (id : String) : Nat := g.depths.of id

/-- **A walk of `k` edges from an id that crosses `n` times** from one class into another. -/
inductive Crosses (g : Graph) : (k : Nat) → (id : String) → (n : Nat) → Prop
  /-- The walk that stays where it is. -/
  | stop (a : String) : Crosses g 0 a 0
  /-- An edge that stays in its class comes first. -/
  | inside {k n : Nat} {a b : String} (hab : g.Leads a b) (hclass : g.SameClass a b)
      (rest : Crosses g k b n) : Crosses g (k + 1) a n
  /-- An edge that leads into another class comes first. -/
  | across {k n : Nat} {a b : String} (hab : g.Leads a b) (hclass : ¬g.SameClass a b)
      (rest : Crosses g k b n) : Crosses g (k + 1) a (n + 1)

/-- What an edge adds to the crossings. -/
def Weighs (g : Graph) (a b : String) (w : Nat) : Prop :=
  g.SameClass a b ∧ w = 0 ∨ ¬g.SameClass a b ∧ w = 1

theorem crosses_zero_iff {g : Graph} {a : String} {n : Nat} : g.Crosses 0 a n ↔ n = 0 := by
  constructor
  · rintro ⟨⟩
    rfl
  · rintro rfl
    exact .stop a

theorem crosses_succ_iff {g : Graph} {k : Nat} {a : String} {n : Nat} : g.Crosses (k + 1) a n ↔
    ∃ b w m, g.Leads a b ∧ g.Weighs a b w ∧ g.Crosses k b m ∧ n = m + w := by
  constructor
  · intro h
    cases h with
    | inside hab hclass rest => exact ⟨_, 0, _, hab, Or.inl ⟨hclass, rfl⟩, rest, rfl⟩
    | across hab hclass rest => exact ⟨_, 1, _, hab, Or.inr ⟨hclass, rfl⟩, rest, rfl⟩
  · rintro ⟨b, w, m, hab, ⟨hclass, rfl⟩ | ⟨hclass, rfl⟩, hm, rfl⟩
    · exact .inside hab hclass hm
    · exact .across hab hclass hm

/-- Before a walk crosses it stays in the class it starts in, and behind the crossing there is a
walk of one crossing less. -/
theorem Crosses.exists_leads {g : Graph} {k n : Nat} {a : String} (hn : g.Crosses k a (n + 1)) :
    ∃ b c, g.SameClass a b ∧ g.Leads b c ∧ ¬g.SameClass b c ∧ ∃ j, g.Crosses j c n := by
  generalize hm : n + 1 = m at hn
  induction hn with
  | stop a => exact absurd hm (Nat.succ_ne_zero n)
  | inside hab hclass _ ih =>
    obtain ⟨c, d, hbc, hcd⟩ := ih hm
    exact ⟨c, d, hclass.trans hbc, hcd⟩
  | across hab hclass rest =>
    obtain rfl := Nat.succ.inj hm
    exact ⟨_, _, Or.inl rfl, hab, hclass, _, rest⟩

/-! ## Rounds of deepening -/

/-- What a round makes of the depth of an id. -/
theorem of_deepen {edges : List (String × String × Nat)} {ds : Depths}
    (hsource : ∀ e ∈ edges, e.1 ∈ ds.map Prod.fst) (id : String) :
    (deepen edges ds).of id =
      ((edges.filter (fun e => e.1 == id)).map fun e => ds.of e.2.1 + e.2.2).foldl max
        (ds.of id) := by
  have hfind : (deepen edges ds).of id = (((ds.find? (fun d => d.1 == id)).map fun d =>
      ((edges.filter (fun e => e.1 == d.1)).map fun e => ds.of e.2.1 + e.2.2).foldl max
        d.2)).getD 0 := by
    rw [Depths.of, deepen, List.find?_map, Option.map_map]
    rfl
  rw [hfind, Depths.of.eq_def ds id]
  cases hd : ds.find? (fun d => d.1 == id) with
  | some d =>
    obtain rfl : d.1 = id := by simpa using List.find?_some hd
    rfl
  | none =>
    have hnone : edges.filter (fun e => e.1 == id) = [] := by
      refine List.filter_eq_nil_iff.mpr fun e he heq => ?_
      obtain ⟨d, hmem, hde⟩ := List.mem_map.mp (hsource e he)
      exact List.find?_eq_none.mp hd d hmem (by rw [hde]; exact heq)
    rw [hnone]
    rfl

theorem map_fst_iterate_deepen (edges : List (String × String × Nat)) (k : Nat) (ds : Depths) :
    ((deepen edges)^[k] ds).map Prod.fst = ds.map Prod.fst := by
  induction k generalizing ds with
  | zero => rfl
  | succ k ih => rw [Function.iterate_succ_apply, ih, map_fst_deepen]

theorem map_fst_depths (g : Graph) : g.depths.map Prod.fst = g.ids := by
  rw [depths, deepenTimes_eq_iterate, map_fst_iterate_deepen, List.map_map]
  exact List.map_id _

namespace WellFormed

variable {g : Graph} (h : g.WellFormed)

include h

/-- Each node has its depth, once. -/
theorem depths_eq : g.depths = g.ids.map fun id => (id, g.depth id) := by
  have hnodup : (g.depths.map Prod.fst).Nodup := by
    rw [map_fst_depths]
    exact h.nodup_ids
  rw [← map_fst_depths, List.map_map]
  refine (List.map_id _).symm.trans (List.map_congr_left fun d hd => ?_)
  have hfind := (find?_key_eq_some_iff hnodup).mpr ⟨hd, rfl⟩
  show d = (d.1, g.depths.of d.1)
  rw [Depths.of, hfind]
  rfl

theorem find?_componentTable {id : String} (hid : id ∈ g.ids) :
    g.componentTable.find? (fun c => c.1 == id) = some (id, g.leastMember id) :=
  (find?_key_eq_some_iff (h.nodup_keys g.leastMember)).mpr ⟨List.mem_map.mpr ⟨id, hid, rfl⟩, rfl⟩

theorem isLeast_leastMember (id : String) :
    IsLeast {x | g.SameClass id x} (g.leastMember id) := by
  have hclass : ∀ {x}, g.SameClass id x ↔ x = id ∨ x ∈ g.companions id :=
    h.mem_cons_companions.symm.trans List.mem_cons
  unfold leastMember
  cases hc : g.companions id with
  | nil =>
    refine ⟨Or.inl rfl, fun x hx => ?_⟩
    have hx : x = id ∨ x ∈ [] := hc ▸ hclass.mp hx
    exact (hx.resolve_right List.not_mem_nil).ge
  | cons least rest =>
    have hasc := hc ▸ pairwise_companions g id
    have hrest : ∀ x ∈ least :: rest, least ≤ x := by
      intro x hx
      rcases List.mem_cons.mp hx with rfl | hx
      · exact le_rfl
      · exact (List.rel_of_pairwise_cons hasc hx).le
    show IsLeast _ (if id < least then id else least)
    split
    · next hlt =>
      refine ⟨Or.inl rfl, fun x hx => ?_⟩
      exact (hc ▸ hclass.mp hx).elim ge_of_eq fun hx => hlt.le.trans (hrest x hx)
    · next hle =>
      refine ⟨hclass.mpr (Or.inr (hc ▸ List.mem_cons_self)), fun x hx => ?_⟩
      exact (hc ▸ hclass.mp hx).elim (fun e => e ▸ not_lt.mp hle) (hrest x)

/-- Classes are told apart by their least members. -/
theorem leastMember_eq_iff {a b : String} :
    g.leastMember a = g.leastMember b ↔ g.SameClass a b := by
  constructor
  · intro he
    have ha : g.SameClass a (g.leastMember a) := (h.isLeast_leastMember a).1
    have hb : g.SameClass b (g.leastMember b) := (h.isLeast_leastMember b).1
    exact ha.trans (he ▸ hb.symm)
  · intro hab
    have hsame : {x | g.SameClass a x} = {x | g.SameClass b x} :=
      Set.ext fun x => ⟨hab.symm.trans, hab.trans⟩
    exact (h.isLeast_leastMember a).unique (hsame ▸ h.isLeast_leastMember b)

theorem mem_weightedEdges {a b : String} {w : Nat} :
    (a, b, w) ∈ g.weightedEdges ↔ g.Leads a b ∧ g.Weighs a b w := by
  have hweight : ∀ {a b}, g.Leads a b →
      ((g.componentTable.find? (fun c => c.1 == a)).map Prod.snd =
        (g.componentTable.find? (fun c => c.1 == b)).map Prod.snd ↔ g.SameClass a b) := by
    intro a b hab
    rw [h.find?_componentTable (h.source_mem hab), h.find?_componentTable (h.target_mem hab),
      Option.map_some, Option.map_some, Option.some_inj, h.leastMember_eq_iff]
  simp only [weightedEdges, List.mem_map, Prod.mk.injEq]
  constructor
  · rintro ⟨e, he, rfl, rfl, rfl⟩
    have hab : g.Leads e.source e.target := ⟨e, he, rfl, rfl⟩
    refine ⟨hab, ?_⟩
    split
    · next hsame => exact Or.inl ⟨(hweight hab).mp hsame, rfl⟩
    · next hnot => exact Or.inr ⟨(hweight hab).not.mp hnot, rfl⟩
  · rintro ⟨⟨e, he, rfl, rfl⟩, hw⟩
    have hab : g.Leads e.source e.target := ⟨e, he, rfl, rfl⟩
    refine ⟨e, he, rfl, rfl, ?_⟩
    rcases hw with ⟨hsame, rfl⟩ | ⟨hnot, rfl⟩
    · exact if_pos ((hweight hab).mpr hsame)
    · exact if_neg ((hweight hab).not.mpr hnot)

/-- **A round looks at walks that are one edge longer**: one of them is its first edge and a walk that
was looked at before. -/
theorem isGreatest_of_deepen {ds : Depths} (hkeys : ds.map Prod.fst = g.ids) {k : Nat}
    (hds : ∀ a, IsGreatest {n | ∃ j ≤ k, g.Crosses j a n} (ds.of a)) (a : String) :
    IsGreatest {n | ∃ j ≤ k + 1, g.Crosses j a n} ((deepen g.weightedEdges ds).of a) := by
  have hsource : ∀ e ∈ g.weightedEdges, e.1 ∈ ds.map Prod.fst := by
    rintro ⟨a, b, w⟩ he
    rw [hkeys]
    exact h.source_mem (h.mem_weightedEdges.mp he).1
  rw [of_deepen hsource]
  obtain ⟨hmem, hle⟩ := isGreatest_foldl_max (ds.of a)
    ((g.weightedEdges.filter (fun e => e.1 == a)).map fun e => ds.of e.2.1 + e.2.2)
  constructor
  · rcases List.mem_cons.mp hmem with he | hlonger
    · obtain ⟨j, hj, hn⟩ := (hds a).1
      rw [he]
      exact ⟨j, Nat.le_succ_of_le hj, hn⟩
    · obtain ⟨⟨c, b, w⟩, he, hvalue⟩ := List.mem_map.mp hlonger
      obtain ⟨hedge, hca⟩ := List.mem_filter.mp he
      obtain rfl : c = a := beq_iff_eq.mp hca
      obtain ⟨hcb, hw⟩ := h.mem_weightedEdges.mp hedge
      obtain ⟨j, hj, hn⟩ := (hds b).1
      exact ⟨j + 1, Nat.succ_le_succ hj, crosses_succ_iff.mpr ⟨b, w, _, hcb, hw, hn, hvalue.symm⟩⟩
  · rintro n ⟨j, hj, hn⟩
    cases j with
    | zero =>
      rw [crosses_zero_iff.mp hn]
      exact Nat.zero_le _
    | succ j =>
      obtain ⟨b, w, m, hab, hw, hm, rfl⟩ := crosses_succ_iff.mp hn
      have hmb : m ≤ ds.of b := (hds b).2 ⟨j, Nat.le_of_succ_le_succ hj, hm⟩
      have hlonger : ds.of b + w ≤ _ := hle (List.mem_cons_of_mem _ (List.mem_map.mpr
        ⟨(a, b, w), List.mem_filter.mpr ⟨h.mem_weightedEdges.mpr ⟨hab, hw⟩, by simp⟩, rfl⟩))
      exact (Nat.add_le_add_right hmb w).trans hlonger

/-- **After `k` rounds an id has the most crossings of a walk of at most `k` edges.** -/
theorem isGreatest_iterate_deepen (k : Nat) (a : String) :
    IsGreatest {n | ∃ j ≤ k, g.Crosses j a n}
      (((deepen g.weightedEdges)^[k] (g.ids.map fun id => (id, 0))).of a) := by
  induction k generalizing a with
  | zero =>
    have hzero : Depths.of (g.ids.map fun id => (id, 0)) a = 0 := by
      rw [Depths.of, List.find?_map, Option.map_map]
      cases g.ids.find? _ <;> rfl
    rw [Function.iterate_zero_apply, hzero]
    refine ⟨⟨0, le_rfl, .stop a⟩, ?_⟩
    rintro n ⟨j, hj, hn⟩
    obtain rfl := Nat.le_zero.mp hj
    exact (crosses_zero_iff.mp hn).le
  | succ k ih =>
    rw [Function.iterate_succ_apply']
    refine h.isGreatest_of_deepen ?_ ih a
    rw [map_fst_iterate_deepen, List.map_map, Function.comp_def, List.map_id']

/-! ## How often a walk can cross -/

theorem mem_cons_allDependencies {x y : String} :
    y ∈ x :: g.allDependencies x ↔ ReflTransGen g.Leads x y := by
  rw [List.mem_cons, h.mem_allDependencies, reflTransGen_iff_eq_or_transGen]
  by_cases hyx : y = x <;> simp [hyx, Reaches]

theorem nodup_cons_allDependencies (x : String) : (x :: g.allDependencies x).Nodup := by
  refine List.nodup_cons.mpr ⟨fun hx => (h.mem_allDependencies.mp hx).1 rfl, ?_⟩
  exact (pairwise_closure g g.arrows x).imp ne_of_lt

/-- A walk crosses at most as often as there are ids left to reach: none of them leads back to
where a crossing started. -/
theorem crosses_le {k : Nat} {a : String} {n : Nat} (hn : g.Crosses k a n) :
    n ≤ (g.allDependencies a).length := by
  have hreach : ∀ {a b}, g.Leads a b → b :: g.allDependencies b ⊆ a :: g.allDependencies a := by
    intro a b hab y hy
    rw [h.mem_cons_allDependencies] at hy ⊢
    exact ReflTransGen.head hab hy
  induction hn with
  | stop a => exact Nat.zero_le _
  | @inside _ n a b hab _ _ ih =>
    have hle := ((h.nodup_cons_allDependencies b).subperm (hreach hab)).length_le
    simp only [List.length_cons] at hle
    omega
  | @across _ n a b hab hclass _ ih =>
    have hback : a ∉ b :: g.allDependencies b := by
      intro hba
      rcases reflTransGen_iff_eq_or_transGen.mp (h.mem_cons_allDependencies.mp hba) with he | hba
      · exact hclass (Or.inl he)
      · exact hclass (Or.inr ⟨TransGen.single hab, hba⟩)
    have hnodup : (a :: b :: g.allDependencies b).Nodup :=
      List.nodup_cons.mpr ⟨hback, h.nodup_cons_allDependencies b⟩
    have hle := (hnodup.subperm (List.cons_subset.mpr ⟨List.mem_cons_self, hreach hab⟩)).length_le
    simp only [List.length_cons] at hle
    omega

theorem exists_isGreatest_crosses (a : String) : ∃ m, IsGreatest {n | ∃ k, g.Crosses k a n} m := by
  have hbound : BddAbove {n | ∃ k, g.Crosses k a n} :=
    ⟨_, fun n hn => h.crosses_le hn.choose_spec⟩
  exact ⟨_, Nat.sSup_mem ⟨0, 0, .stop a⟩ hbound, fun n hn => le_csSup hbound hn⟩

/-- **A walk that crosses most often need not be longer than there are nodes.** -/
theorem exists_short_crosses {a : String} {m : Nat}
    (hm : IsGreatest {n | ∃ k, g.Crosses k a n} m) : ∃ k ≤ g.ids.length, g.Crosses k a m := by
  classical
  choose most hmost using h.exists_isGreatest_crosses
  -- the length of the shortest walk that crosses most often
  let least (x : String) : Nat := Nat.find (hmost x).1
  have hleast : ∀ x, g.Crosses (least x) x (most x) := fun x => Nat.find_spec (hmost x).1
  have hdescends : ∀ x n, least x = n + 1 → ∃ y ∈ g.ids, least y = n := by
    intro x n hx
    obtain ⟨y, w, p, hxy, hw, hp, hsum⟩ := crosses_succ_iff.mp (hx ▸ hleast x)
    have hover : ∀ {k q}, g.Crosses k y q → g.Crosses (k + 1) x (q + w) :=
      fun hq => crosses_succ_iff.mpr ⟨y, w, _, hxy, hw, hq, rfl⟩
    have hle : p ≤ most y := (hmost y).2 ⟨n, hp⟩
    have hge : most y + w ≤ most x := (hmost x).2 ⟨_, hover (hleast y)⟩
    obtain rfl : p = most y := by omega
    have hn : least y ≤ n := Nat.find_min' (hmost y).1 hp
    have hback : least x ≤ least y + 1 := Nat.find_min' (hmost x).1 (hsum ▸ hover (hleast y))
    exact ⟨y, h.target_mem hxy, by omega⟩
  obtain rfl : most a = m := (hmost a).unique hm
  refine ⟨least a, ?_, hleast a⟩
  cases hlen : least a with
  | zero => exact Nat.zero_le _
  | succ n =>
    obtain ⟨y, hy, hyn⟩ := hdescends a n hlen
    exact hyn ▸ lt_length_of_descends (fun x _ n hx => hdescends x n hx) hy

/-- **The depth of an id is the greatest number of crossings on a walk from it.** -/
theorem isGreatest_depth (a : String) : IsGreatest {n | ∃ k, g.Crosses k a n} (g.depth a) := by
  have hrounds := h.isGreatest_iterate_deepen g.nodes.length a
  rw [← deepenTimes_eq_iterate] at hrounds
  obtain ⟨m, hm⟩ := h.exists_isGreatest_crosses a
  obtain ⟨k, hk, hkm⟩ := h.exists_short_crosses hm
  have hk : k ≤ g.nodes.length := by simpa [ids] using hk
  obtain ⟨j, -, hj⟩ := hrounds.1
  have heq : g.depth a = m := le_antisymm (hm.2 ⟨j, hj⟩) (hrounds.2 ⟨k, hk, hkm⟩)
  exact heq ▸ hm

/-! ## Depths along edges -/

variable {a b : String}

/-- A walk from the end of an edge is a walk from its start. -/
theorem depth_add_le {w : Nat} (hab : g.Leads a b) (hw : g.Weighs a b w) :
    g.depth b + w ≤ g.depth a := by
  obtain ⟨k, hk⟩ := (h.isGreatest_depth b).1
  exact (h.isGreatest_depth a).2 ⟨k + 1, crosses_succ_iff.mpr ⟨b, w, _, hab, hw, hk, rfl⟩⟩

theorem depth_le_of_leads (hab : g.Leads a b) : g.depth b ≤ g.depth a := by
  by_cases hclass : g.SameClass a b
  · exact h.depth_add_le hab (Or.inl ⟨hclass, rfl⟩)
  · exact (Nat.le_succ _).trans (h.depth_add_le hab (Or.inr ⟨hclass, rfl⟩))

theorem depth_le_of_reaches (hab : g.Reaches a b) : g.depth b ≤ g.depth a := by
  induction hab with
  | single hab => exact h.depth_le_of_leads hab
  | tail _ hbc ih => exact (h.depth_le_of_leads hbc).trans ih

/-- **The nodes of a class have the same depth.** -/
theorem depth_eq_of_sameClass (hab : g.SameClass a b) : g.depth a = g.depth b := by
  rcases hab with rfl | ⟨hab, hba⟩
  · rfl
  · exact le_antisymm (h.depth_le_of_reaches hba) (h.depth_le_of_reaches hab)

/-- **An edge that leads into another class leads to a smaller depth.** -/
theorem depth_lt_of_leads (hab : g.Leads a b) (hclass : ¬g.SameClass a b) :
    g.depth b < g.depth a :=
  h.depth_add_le hab (Or.inr ⟨hclass, rfl⟩)

/-- **A depth comes from the depth one below**, to which an edge leads from the class. -/
theorem exists_leads_of_depth {n : Nat} (hn : g.depth a = n + 1) : ∃ b c, g.SameClass a b ∧
    g.Leads b c ∧ ¬g.SameClass b c ∧ g.depth c = n := by
  obtain ⟨k, hk⟩ := (h.isGreatest_depth a).1
  obtain ⟨b, c, hab, hbc, hclass, j, hj⟩ := (hn ▸ hk : g.Crosses k a (n + 1)).exists_leads
  refine ⟨b, c, hab, hbc, hclass, le_antisymm ?_ ((h.isGreatest_depth c).2 ⟨j, hj⟩)⟩
  have hlt := h.depth_lt_of_leads hbc hclass
  rw [← h.depth_eq_of_sameClass hab, hn] at hlt
  exact Nat.lt_succ_iff.mp hlt

/-- **The depth is 0 where no edge leaves the class.** -/
theorem depth_eq_zero_iff :
    g.depth a = 0 ↔ ∀ b c, g.SameClass a b → g.Leads b c → g.SameClass a c := by
  constructor
  · intro hzero b c hab hbc
    by_contra hac
    have hlt := h.depth_lt_of_leads hbc fun hclass => hac (hab.trans hclass)
    rw [← h.depth_eq_of_sameClass hab, hzero] at hlt
    exact Nat.not_lt_zero _ hlt
  · intro hstay
    by_contra hne
    obtain ⟨n, hn⟩ := Nat.exists_eq_succ_of_ne_zero hne
    obtain ⟨b, c, hab, hbc, hclass, -⟩ := h.exists_leads_of_depth hn
    exact hclass (hab.symm.trans (hstay b c hab hbc))

end WellFormed

end Graph

end CsdlAudit
