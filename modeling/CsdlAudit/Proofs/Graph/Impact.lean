import CsdlAudit.Graph.Impact
import CsdlAudit.Proofs.Graph.Components
import CsdlAudit.Proofs.Graph.PathSteps

/-!
# The impact of an element

The impact joins three queries: the edges to an element, the closure of its dependents and the
search for a path. That they fit together rests on what is known of each. No edge joins a node to
itself, so the direct dependents are among all dependents, and what remains is reached through
others only. There is a path from each of those, and it has an id between its ends. So the
dependents are divided into two parts, and those of the second are explained, each by one path
(`Graph.impactExplained_assemble`).
-/

namespace CsdlAudit.Graph

open Relation

/-- A path has an id between its ends, unless they are equal or joined by an edge. -/
theorem IsPath.three_le_length {g : Graph} {a b : String} {p : List String} (h : g.IsPath a b p)
    (hne : a ≠ b) (hnot : ¬g.Leads a b) : 3 ≤ p.length := by
  obtain ⟨tail, rfl⟩ := List.head?_eq_some_iff.mp h.head
  obtain ⟨next, rest, rfl, hnext⟩ := h.exists_leads [] hne
  have hnb : next ≠ b := fun e => hnot (e ▸ hnext)
  obtain ⟨last, more, rfl, -⟩ := h.exists_leads [a] hnb
  simp

section

variable {g : Graph} {id d : String}

theorem mem_transitive : d ∈ (g.impact id).transitive ↔
    d ∈ g.allDependents id ∧ ¬g.Leads d id := by
  simp [impact]

/-- An entry of the paths is a transitive dependent with the path that is found from it. -/
theorem mem_impact_paths {e : String × List String} : e ∈ (g.impact id).paths ↔
    e.1 ∈ (g.impact id).transitive ∧ e.2 = g.path e.1 id ∧ e.2 ≠ [] := by
  simp only [impact, List.mem_filter, List.mem_map, Bool.not_eq_true', List.isEmpty_eq_false_iff]
  constructor
  · rintro ⟨⟨d, hd, rfl⟩, hne⟩
    exact ⟨hd, rfl, hne⟩
  · rintro ⟨hd, hpath, hne⟩
    exact ⟨⟨e.1, hd, Prod.ext rfl hpath.symm⟩, hne⟩

namespace WellFormed

variable (h : g.WellFormed)

include h

/-- Whoever depends on an id directly is one of its dependents. -/
theorem mem_allDependents_of_leads (hd : g.Leads d id) : d ∈ g.allDependents id :=
  h.mem_allDependents.mpr ⟨h.ne_of_leads hd, TransGen.single hd⟩

/-- The direct dependents are the first part of all dependents. -/
theorem filter_allDependents : (g.allDependents id).filter (g.dependents id).contains =
    g.dependents id := by
  refine Ascending.eq_of_mem_iff ((pairwise_closure g _ id).filter _)
    (Ascending.pairwise_lt_ofList _) fun d => ?_
  rw [List.mem_filter, List.contains_iff_mem, and_iff_right_iff_imp]
  exact fun hd => h.mem_allDependents_of_leads (mem_dependents.mp hd)

/-- From each transitive dependent a path is found. -/
theorem path_ne_nil_of_transitive (hd : d ∈ (g.impact id).transitive) : g.path d id ≠ [] := by
  obtain ⟨hne, hreaches⟩ := h.mem_allDependents.mp (mem_transitive.mp hd).1
  exact h.path_ne_nil hreaches hne.symm

/-- No path is left out for being empty. -/
theorem map_impact_paths : (g.impact id).paths.map Prod.fst = (g.impact id).transitive := by
  have hall : ((g.impact id).transitive.map fun d => (d, g.path d id)).filter
      (fun p => !p.2.isEmpty) = (g.impact id).transitive.map fun d => (d, g.path d id) := by
    refine List.filter_eq_self.mpr fun e he => ?_
    obtain ⟨d, hd, rfl⟩ := List.mem_map.mp he
    rw [Bool.not_eq_true', List.isEmpty_eq_false_iff]
    exact h.path_ne_nil_of_transitive hd
  show ((((g.impact id).transitive.map fun d => (d, g.path d id)).filter
    fun p => !p.2.isEmpty).map Prod.fst) = _
  rw [hall, List.map_map]
  exact List.map_id _

end WellFormed

end

/-- **What the impact of an element says.** -/
structure ImpactExplained (g : Graph) (id : String) : Prop where
  /-- The direct dependents are the nodes with an edge to it. -/
  direct : ∀ d, d ∈ (g.impact id).direct ↔ g.Leads d id
  /-- Nothing is listed twice: both parts ascend. -/
  ascending : (g.impact id).direct.Pairwise (· < ·) ∧ (g.impact id).transitive.Pairwise (· < ·)
  /-- No dependent is in both parts. -/
  disjoint : (g.impact id).direct.Disjoint (g.impact id).transitive
  /-- The element is in neither. -/
  notMem : id ∉ (g.impact id).direct ∧ id ∉ (g.impact id).transitive
  /-- Together they are all dependents. -/
  union : ∀ d, d ∈ (g.impact id).direct ∨ d ∈ (g.impact id).transitive ↔ d ∈ g.allDependents id
  /-- They are counted together. -/
  total : (g.impact id).total = (g.impact id).direct.length + (g.impact id).transitive.length
  /-- Each transitive dependent is explained once, and nothing else is. -/
  explained : (g.impact id).paths.map Prod.fst = (g.impact id).transitive
  /-- What explains it is a simple path from it to the element with an id between them: the path
  that the search finds. -/
  paths : ∀ e ∈ (g.impact id).paths,
    g.IsPath e.1 id e.2 ∧ 3 ≤ e.2.length ∧ e.2 = g.path e.1 id

/-- **The impact divides the dependents and explains them on every graph**, in whatever order it was
put together, and for every id, known or not. -/
theorem impactExplained_assemble (additions : List Addition) (id : String) :
    (assemble additions).ImpactExplained id := by
  have h := wellFormed_assemble additions
  have hself : ¬(assemble additions).Leads id id := fun hid => h.ne_of_leads hid rfl
  exact {
    direct := fun _ => mem_dependents
    ascending := ⟨Ascending.pairwise_lt_ofList _, (pairwise_closure _ _ id).filter _⟩
    disjoint := fun _ hd ht => (mem_transitive.mp ht).2 (mem_dependents.mp hd)
    notMem := ⟨fun hd => hself (mem_dependents.mp hd),
      fun ht => (h.mem_allDependents.mp (mem_transitive.mp ht).1).1 rfl⟩
    union := by
      intro d
      rw [mem_transitive]
      by_cases hd : (assemble additions).Leads d id
      · exact iff_of_true (Or.inl (mem_dependents.mpr hd)) (h.mem_allDependents_of_leads hd)
      · have hnot : d ∉ ((assemble additions).impact id).direct := mem_dependents.not.mpr hd
        rw [or_iff_right hnot, and_iff_left hd]
    total := by
      have hcount := List.length_eq_length_filter_add (l := (assemble additions).allDependents id)
        ((assemble additions).dependents id).contains
      rwa [h.filter_allDependents] at hcount
    explained := h.map_impact_paths
    paths := by
      intro e he
      obtain ⟨ht, hpath, hne⟩ := mem_impact_paths.mp he
      have hfound : (assemble additions).path e.1 id ≠ [] := hpath ▸ hne
      have hsimple : (assemble additions).IsPath e.1 id e.2 := hpath ▸ (h.isLeast_path hfound).1
      have hother : e.1 ≠ id := (h.mem_allDependents.mp (mem_transitive.mp ht).1).1
      exact ⟨hsimple, hsimple.three_le_length hother (mem_transitive.mp ht).2, hpath⟩ }

end CsdlAudit.Graph
