import CsdlAudit.Conflict.Detect
import CsdlAudit.Proofs.Conflict.Sources
import CsdlAudit.Proofs.Graph.Cycles
import CsdlAudit.Proofs.Graph.Members

/-!
# The files that a graph names

Whatever is declared in a scope has the file of the scope, and a scope is that of a block. So the
nodes of a graph, and the references that lead nowhere or cannot be read, name files of its blocks
(`ReferenceGraph.sourced_build`), and so do the findings that are made of them: every id of a
reported cycle has a node (`ReferenceGraph.subset_ids_of_mem_cycles`), from which the file is taken.
-/

namespace CsdlAudit

/-! ## Declarations -/

theorem Scope.file_of_mem_of? {s : Scope} {e : String × SchemaBlock} (h : s ∈ Scope.of? e) :
    s.file = e.1 := by
  obtain ⟨_, -, rfl⟩ := Option.map_eq_some_iff.mp h
  rfl

/-- **The references of a definition have the file of its scope.** -/
theorem Definition.sourceFile_of_mem_references (s : Scope) (d : Definition) :
    ∀ r ∈ d.references s, r.sourceFile = s.file := by
  cases d <;>
    simp only [references, StructuredType.references, Operation.references,
      EntityContainer.references, Scope.refer, List.forall_mem_append, List.forall_mem_map,
      List.forall_mem_cons, List.not_mem_nil, false_implies, implies_true, and_self]

/-! ## Cycles -/

/-- The ids of a cycle are nodes. -/
theorem Graph.IsCycle.subset_ids {g : Graph} {c : List String} (hc : g.IsCycle c)
    (h : g.WellFormed) : c ⊆ g.ids :=
  fun _ ha => (h.reaches_mem (hc.mutual_of_mem ha ha).1).1

namespace ReferenceGraph

section

variable (options : GraphOptions) (blocks : List (String × SchemaBlock))

/-- **The ids of a reported cycle are nodes**, and there are some. -/
theorem subset_ids_of_mem_cycles {c : List String} (h : c ∈ (build options blocks).cycles) :
    c ≠ [] ∧ c ⊆ (build options blocks).ids := by
  have hwf := wellFormed_build options blocks
  rcases hwf.isCycle_or_self h with hc | ⟨a, ha, rfl⟩
  · obtain ⟨x, y, mid, rfl, -⟩ := hc.eq_cons_concat
    exact ⟨List.cons_ne_nil _ _, hc.subset_ids hwf⟩
  · obtain ⟨r, hr, rfl, -⟩ := (mem_selfIds_build options blocks).mp ha
    have hsource : r.source ∈ (build options blocks).ids :=
      (linked_build options blocks).mem_ids.mpr (source_mem_ids_of_held hr)
    exact ⟨List.cons_ne_nil _ _, by simpa using hsource⟩

end

/-! ## What is in a graph -/

/-- **The files that a graph names take part.** -/
structure Sourced (known : String → Prop) (g : ReferenceGraph) : Prop where
  /-- Those of the nodes. -/
  nodes : ∀ n ∈ g.nodes, known n.sourceFile
  /-- Those of the references that lead nowhere. -/
  unresolved : ∀ u ∈ g.unresolved, known u.sourceFile
  /-- Those of the references that cannot be read. -/
  failures : ∀ f ∈ g.failures, known f.sourceFile

variable {options : GraphOptions} {blocks : List (String × SchemaBlock)} {known : String → Prop}

theorem known_of_held (hknown : ∀ e ∈ blocks, known e.1) {r : Reference}
    (hr : r ∈ heldReferences blocks) : known r.sourceFile := by
  simp only [heldReferences, List.mem_flatMap, Option.mem_toList] at hr
  obtain ⟨e, he, s, hs, d, -, hr⟩ := hr
  rw [d.sourceFile_of_mem_references s r hr, Scope.file_of_mem_of? hs]
  exact hknown e he

/-- **A graph names files of its blocks only.** -/
theorem sourced_build (hknown : ∀ e ∈ blocks, known e.1) :
    (build options blocks).Sourced known where
  nodes := by
    intro n hn
    have hscope : ∀ {s d}, Declares blocks s d → known s.file := fun ⟨e, he, hs, _⟩ =>
      Scope.file_of_mem_of? hs ▸ hknown e he
    obtain ⟨s, d, hd, rfl | ⟨m, -, rfl⟩⟩ := exists_declaration options blocks hn
    · exact hscope hd
    · exact hscope hd
  unresolved := by
    intro u hu
    rw [(linked_build options blocks).unresolved] at hu
    obtain ⟨p, hp, rfl⟩ := List.mem_map.mp ((List.mem_append.mp hu).resolve_left List.not_mem_nil)
    exact known_of_held hknown ((mem_meanings options blocks).mp (List.mem_filter.mp hp).1).1
  failures := by
    intro f hf
    rw [(linked_build options blocks).failures] at hf
    obtain ⟨r, hr, hfailure⟩ :=
      List.mem_filterMap.mp ((List.mem_append.mp hf).resolve_left List.not_mem_nil)
    unfold Reference.failure? at hfailure
    split at hfailure
    · cases hfailure
    · obtain rfl := Option.some.inj hfailure
      exact known_of_held hknown hr

/-! ## What is found in a graph -/

variable {filesOf? : String → Option (List String)} {c : Conflict}

/-- A cycle names the files of its nodes. -/
theorem sourced_of_mem_cycleConflicts (hknown : ∀ e ∈ blocks, known e.1)
    (h : c ∈ (build options blocks).cycleConflicts) : c.Sourced known filesOf? := by
  obtain ⟨cycle, hcycle, rfl⟩ := List.mem_map.mp h
  have hmem : ∀ file, file ∈ ((build options blocks).cycleConflict cycle).files ↔
      ∃ n, (∃ id ∈ cycle, (build options blocks).node? id = some n) ∧ n.sourceFile = file := by
    intro file
    simp only [Graph.cycleConflict, Conflict.circularReference, Ascending.mem_ofList,
      List.mem_map, List.mem_filterMap]
  exact {
    ascending := Ascending.pairwise_lt_ofList _
    known := by
      intro file hfile
      obtain ⟨n, ⟨id, -, hn⟩, rfl⟩ := (hmem file).mp hfile
      exact (sourced_build hknown).nodes n (List.mem_of_find?_eq_some hn)
    several := fun htype => by cases htype
    one := fun htype => by cases htype
    some := by
      intro _
      obtain ⟨hne, hids⟩ := subset_ids_of_mem_cycles options blocks hcycle
      obtain ⟨id, hid⟩ := List.exists_mem_of_ne_nil cycle hne
      obtain ⟨n, hn⟩ := Option.isSome_iff_exists.mp (Graph.hasNode_iff.mpr (hids hid))
      exact List.length_pos_of_mem ((hmem n.sourceFile).mpr ⟨n, ⟨id, hid, hn⟩, rfl⟩) }

/-- A reference that leads nowhere names its file. -/
theorem sourced_of_mem_missingConflicts (hknown : ∀ e ∈ blocks, known e.1)
    (h : c ∈ (build options blocks).missingConflicts) : c.Sourced known filesOf? := by
  obtain ⟨u, hu, rfl⟩ := List.mem_map.mp h
  exact {
    ascending := List.pairwise_singleton _ _
    known := fun file hfile =>
      List.mem_singleton.mp hfile ▸ (sourced_build hknown).unresolved u hu
    several := fun htype => by cases htype
    one := fun _ => rfl
    some := fun htype => by rcases htype with htype | htype <;> cases htype }

end ReferenceGraph

end CsdlAudit
