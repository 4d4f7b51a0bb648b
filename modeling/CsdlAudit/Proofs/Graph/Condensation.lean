import CsdlAudit.Proofs.Graph.Depth

/-!
# Depths class by class

Depths can also be found class by class. Between the classes no edges lead round, so they can be put
in an order in which no edge leads back (`Graph.WellFormed.exists_classOrder`). From the end of the
order on, a class is one deeper than the deepest of the other classes to which an edge leads from
it, and a class that has not been met counts as depth 0. None is missing where it counts: what an
edge leads to stands behind. So whatever divides the nodes into classes, and whatever order they are
put in, every node gets its depth (`Graph.WellFormed.memberDepths_perm`).
-/

namespace CsdlAudit.Graph

/-- The other classes to which an edge leads from a class. -/
def nextClasses (g : Graph) (classes : List (List String)) (c : List String) :
    List (List String) :=
  classes.filter fun d =>
    d != c && g.edges.any fun e => c.contains e.source && d.contains e.target

/-- The depth of a class, as far as it is known. -/
def knownDepth (known : List (List String × Nat)) (c : List String) : Nat :=
  (known.lookup c).getD 0

/-- **The depths of classes**, from the end of their order on. -/
def classDepths (g : Graph) (classes : List (List String)) :
    (order : List (List String)) → List (List String × Nat)
  | [] => []
  | c :: rest =>
    let known := g.classDepths classes rest
    (c, ((g.nextClasses classes c).map fun d => knownDepth known d + 1).foldl max 0) :: known

/-- **The depths of the members of all classes.** -/
def memberDepths (g : Graph) (classes order : List (List String)) : Depths :=
  let known := g.classDepths classes order
  classes.flatMap fun c => c.map fun id => (id, knownDepth known c)

/-- **The condensation of a graph**: its classes, each of some nodes. -/
structure Condensed (g : Graph) (classes : List (List String)) : Prop
    extends g.Division classes where
  /-- They are made of nodes. -/
  nodes : ∀ {c}, c ∈ classes → c ⊆ g.ids
  /-- None of them is empty. -/
  ne_nil : ∀ {c}, c ∈ classes → c ≠ []

/-- **An order of the classes in which no edge leads back.** -/
structure ClassOrder (g : Graph) (classes order : List (List String)) : Prop where
  /-- Each class has its place. -/
  perm : order.Perm classes
  /-- No edge leads from a class to one that stands before it. -/
  forward : order.Pairwise fun c d => ∀ a ∈ d, ∀ b ∈ c, ¬g.Leads a b

theorem mem_nextClasses {g : Graph} {classes : List (List String)} {c d : List String} :
    d ∈ g.nextClasses classes c ↔ d ∈ classes ∧ d ≠ c ∧ ∃ a ∈ c, ∃ b ∈ d, g.Leads a b := by
  simp only [nextClasses, List.mem_filter, Bool.and_eq_true, bne_iff_ne, List.any_eq_true,
    List.contains_iff_mem]
  refine and_congr_right fun _ => and_congr_right fun _ => ⟨?_, ?_⟩
  · rintro ⟨e, he, hsource, htarget⟩
    exact ⟨_, hsource, _, htarget, e, he, rfl, rfl⟩
  · rintro ⟨_, hsource, _, htarget, e, he, rfl, rfl⟩
    exact ⟨e, he, hsource, htarget⟩

namespace Division

variable {g : Graph} {classes : List (List String)} (division : g.Division classes)

include division

/-- An id is in one class only. -/
theorem eq_of_mem {c d : List String} (hc : c ∈ classes) (hd : d ∈ classes) {a : String}
    (hac : a ∈ c) (had : a ∈ d) : c = d := by
  by_contra hne
  have : Std.Symm (@List.Disjoint String) := ⟨fun _ _ => List.Disjoint.symm⟩
  exact division.disjoint.forall hc hd hne hac had

/-- Of any division the classes that have a node are left as the condensation. -/
theorem condensed_filter (h : g.WellFormed) :
    g.Condensed (classes.filter fun c => c.any g.hasNode) where
  cover := by
    intro id hid
    obtain ⟨c, hc, hidc⟩ := division.cover hid
    have hany : c.any g.hasNode = true := List.any_eq_true.mpr ⟨id, hidc, hasNode_iff.mpr hid⟩
    exact ⟨c, List.mem_filter.mpr ⟨hc, hany⟩, hidc⟩
  whole := fun hc => division.whole (List.mem_of_mem_filter hc)
  nodup := fun hc => division.nodup (List.mem_of_mem_filter hc)
  disjoint := division.disjoint.filter _
  nodes := by
    intro c hc b hb
    obtain ⟨hc, hany⟩ := List.mem_filter.mp hc
    obtain ⟨a, ha, hnode⟩ := List.any_eq_true.mp hany
    rcases (division.whole hc ha).mp hb with rfl | hab
    · exact hasNode_iff.mp hnode
    · exact (h.reaches_mem hab.1).2
  ne_nil := by
    rintro c hc rfl
    exact absurd (List.mem_filter.mp hc).2 (by simp)

end Division

/-- The members of all classes are the nodes. -/
theorem Condensed.flatten_perm {g : Graph} {classes : List (List String)}
    (condensed : g.Condensed classes) (hnodup : g.ids.Nodup) : classes.flatten.Perm g.ids := by
  have hflat : classes.flatten.Nodup :=
    List.nodup_flatten.mpr ⟨fun _ hc => condensed.nodup hc, condensed.disjoint⟩
  refine (List.perm_ext_iff_of_nodup hflat hnodup).mpr fun id => ?_
  rw [List.mem_flatten]
  exact ⟨fun ⟨c, hc, hid⟩ => condensed.nodes hc hid, condensed.cover⟩

namespace WellFormed

variable {g : Graph} (h : g.WellFormed) {classes : List (List String)}

include h

section

variable (division : g.Division classes)

include division

/-- A class has the depth of any of its members. -/
theorem depth_headD {c : List String} (hc : c ∈ classes) {a : String} (ha : a ∈ c) :
    g.depth (c.headD "") = g.depth a := by
  have hhead : c.headD "" ∈ c := by
    cases c with
    | nil => exact absurd ha List.not_mem_nil
    | cons => exact List.mem_cons_self
  exact h.depth_eq_of_sameClass ((division.whole hc hhead).mp ha)

/-- **There is an order in which no edge leads back**: that of depths, the greatest first. -/
theorem exists_classOrder : ∃ order, g.ClassOrder classes order := by
  let deeper (c d : List String) : Bool := decide (g.depth (d.headD "") ≤ g.depth (c.headD ""))
  have hperm := List.mergeSort_perm classes deeper
  have hsorted : (classes.mergeSort deeper).Pairwise fun c d => deeper c d = true := by
    refine List.pairwise_mergeSort (fun a b c hab hbc => ?_) (fun a b => ?_) classes
    · exact decide_eq_true ((of_decide_eq_true hbc).trans (of_decide_eq_true hab))
    · rw [Bool.or_eq_true, decide_eq_true_eq, decide_eq_true_eq]
      exact le_total _ _
  have hdisjoint : (classes.mergeSort deeper).Pairwise List.Disjoint :=
    (hperm.pairwise_iff List.Disjoint.symm).mpr division.disjoint
  refine ⟨_, hperm, (hsorted.and hdisjoint).imp_of_mem ?_⟩
  rintro c d hc hd ⟨hdeeper, hdisjoint⟩ a ha b hb hab
  have hc := hperm.mem_iff.mp hc
  have hd := hperm.mem_iff.mp hd
  have hclass : ¬g.SameClass a b := fun hclass => hdisjoint hb ((division.whole hd ha).mpr hclass)
  have hle : g.depth a ≤ g.depth b := by
    rw [← h.depth_headD division hd ha, ← h.depth_headD division hc hb]
    exact of_decide_eq_true hdeeper
  exact Nat.not_lt.mpr hle (h.depth_lt_of_leads hab hclass)

/-- A class is one deeper than the deepest of the other classes to which an edge leads from it. -/
theorem foldl_nextClasses {c : List String} (hc : c ∈ classes) {a : String} (ha : a ∈ c)
    {f : List String → Nat} (hf : ∀ d ∈ g.nextClasses classes c, ∀ b ∈ d, f d = g.depth b) :
    ((g.nextClasses classes c).map fun d => f d + 1).foldl max 0 = g.depth a := by
  obtain ⟨hmem, hle⟩ := isGreatest_foldl_max 0 ((g.nextClasses classes c).map fun d => f d + 1)
  refine le_antisymm ?_ ?_
  · rcases List.mem_cons.mp hmem with hzero | hnext
    · exact hzero.le.trans (Nat.zero_le _)
    · obtain ⟨d, hd, hvalue⟩ := List.mem_map.mp hnext
      obtain ⟨hdc, hne, b, hb, x, hx, hbx⟩ := mem_nextClasses.mp hd
      have hclass : ¬g.SameClass b x := fun hclass =>
        hne (division.eq_of_mem hdc hc hx ((division.whole hc hb).mpr hclass))
      rw [← hvalue, hf d hd x hx, h.depth_eq_of_sameClass ((division.whole hc ha).mp hb)]
      exact h.depth_lt_of_leads hbx hclass
  · cases hdepth : g.depth a with
    | zero => exact Nat.zero_le _
    | succ n =>
      obtain ⟨b, x, hab, hbx, hclass, hx⟩ := h.exists_leads_of_depth hdepth
      obtain ⟨d, hd, hxd⟩ := division.cover (h.target_mem hbx)
      have hb : b ∈ c := (division.whole hc ha).mpr hab
      have hne : d ≠ c := fun e => hclass ((division.whole hc hb).mp (e ▸ hxd))
      have hnext : d ∈ g.nextClasses classes c :=
        mem_nextClasses.mpr ⟨hd, hne, b, hb, x, hxd, hbx⟩
      rw [← hx, ← hf d hnext x hxd]
      exact hle (List.mem_cons_of_mem 0 (List.mem_map_of_mem hnext))

/-- **Class by class the depths are found.** The induction needs of the rest of the order that no
edge leads out of it, which holds because none leads back. -/
theorem knownDepth_classDepths {order : List (List String)} (hsub : order ⊆ classes)
    (hforward : order.Pairwise fun c d => ∀ a ∈ d, ∀ b ∈ c, ¬g.Leads a b)
    (hclosed : ∀ c ∈ order, g.nextClasses classes c ⊆ order) {c : List String} (hc : c ∈ order)
    {a : String} (ha : a ∈ c) : knownDepth (g.classDepths classes order) c = g.depth a := by
  induction order generalizing c a with
  | nil => exact absurd hc List.not_mem_nil
  | cons first rest ih =>
    obtain ⟨hfirst, hrest⟩ := List.cons_subset.mp hsub
    obtain ⟨hback, hforward'⟩ := List.pairwise_cons.mp hforward
    have hclosed' : ∀ c ∈ rest, g.nextClasses classes c ⊆ rest := by
      intro d hd e he
      refine (List.mem_cons.mp (hclosed d (List.mem_cons_of_mem first hd) he)).resolve_left ?_
      rintro rfl
      obtain ⟨-, -, x, hx, y, hy, hxy⟩ := mem_nextClasses.mp he
      exact hback d hd x hx y hy hxy
    have hnext : ∀ d ∈ g.nextClasses classes first, d ∈ rest := fun d hd =>
      (List.mem_cons.mp (hclosed first List.mem_cons_self hd)).resolve_left
        (mem_nextClasses.mp hd).2.1
    rw [knownDepth, classDepths, List.lookup_cons]
    split
    · next heq =>
      obtain rfl := beq_iff_eq.mp heq
      rw [Option.getD_some]
      exact h.foldl_nextClasses division hfirst ha fun d hd b hb =>
        ih hrest hforward' hclosed' (hnext d hd) hb
    · next hne =>
      have hc : c ∈ rest := (List.mem_cons.mp hc).resolve_left (by simpa using hne)
      exact ih hrest hforward' hclosed' hc ha

end

/-- **Whatever the order, every node gets its depth**, and gets it once. -/
theorem memberDepths_perm (condensed : g.Condensed classes) {order : List (List String)}
    (horder : g.ClassOrder classes order) : (g.memberDepths classes order).Perm g.depths := by
  have hmembers : g.memberDepths classes order =
      classes.flatMap fun c => c.map fun id => (id, g.depth id) := by
    refine List.flatMap_congr fun c hc => List.map_congr_left fun id hid => ?_
    have hclosed : ∀ c ∈ order, g.nextClasses classes c ⊆ order := fun c _ d hd =>
      horder.perm.mem_iff.mpr (mem_nextClasses.mp hd).1
    rw [h.knownDepth_classDepths condensed.toDivision horder.perm.subset horder.forward hclosed
      (horder.perm.mem_iff.mpr hc) hid]
  rw [hmembers, h.depths_eq, List.flatMap_def, ← List.map_flatten]
  exact (condensed.flatten_perm h.nodup_ids).map _

/-- **No depth is as great as the number of classes**: below a class of some depth there are classes
of all smaller depths. -/
theorem depth_lt_length (condensed : g.Condensed classes) {a : String} (ha : a ∈ g.ids) :
    g.depth a < classes.length := by
  have hdescends : ∀ c ∈ classes, ∀ n, g.depth (c.headD "") = n + 1 →
      ∃ d ∈ classes, g.depth (d.headD "") = n := by
    intro c hc n hn
    obtain ⟨x, y, -, hxy, -, hy⟩ := h.exists_leads_of_depth hn
    obtain ⟨d, hd, hyd⟩ := condensed.cover (h.target_mem hxy)
    exact ⟨d, hd, (h.depth_headD condensed.toDivision hd hyd).trans hy⟩
  obtain ⟨c, hc, hac⟩ := condensed.cover ha
  rw [← h.depth_headD condensed.toDivision hc hac]
  exact lt_length_of_descends hdescends hc

theorem exists_condensed : ∃ classes, g.Condensed classes := by
  obtain ⟨_, division⟩ := h.exists_division
  exact ⟨_, division.condensed_filter h⟩

end WellFormed

end CsdlAudit.Graph
