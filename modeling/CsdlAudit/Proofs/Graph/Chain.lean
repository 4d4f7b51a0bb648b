import CsdlAudit.Graph.Impact
import CsdlAudit.Proofs.Graph.Build
import CsdlAudit.Proofs.Graph.Cycles
import CsdlAudit.Proofs.Graph.Path

/-!
# No dependency is lost

An element of the blocks refers to another when one of its definitions holds a reference that leads
to it. In the finished graph such an element reaches the other along edges, through the part that
holds the reference if there is one; or it is the other, and is noted to refer to itself
(`ReferenceGraph.RefersTo.reaches_or_self`). So a chain of elements, each referring to the next, is
a walk of the graph (`ReferenceGraph.reaches_or_self_of_chain`), and every query that follows edges
finds its end from its start (`ReferenceGraph.found_of_chain`).
-/

namespace CsdlAudit

open Relation

/-- **Who depends on an id is named by its impact**, among the direct or the other dependents. -/
theorem Graph.mem_impact {g : Graph} {a b : String} (h : a ∈ g.allDependents b) :
    a ∈ (g.impact b).direct ∨ a ∈ (g.impact b).transitive := by
  by_cases hdirect : a ∈ g.dependents b
  · exact Or.inl hdirect
  · exact Or.inr (List.mem_filter.mpr ⟨h, by simpa using hdirect⟩)

namespace ReferenceGraph

variable {options : GraphOptions} {blocks : List (String × SchemaBlock)} {a b : String}

/-- **An element refers to an id**: one of its definitions holds a reference that leads to the id,
which has a node. -/
def RefersTo (options : GraphOptions) (blocks : List (String × SchemaBlock)) (a b : String) :
    Prop :=
  ∃ r targets, Holds blocks a r ∧
    r.targets ⟨options.primitiveStart⟩ (declaredAliases blocks)
      (NodeStage.ofDeclared (declared blocks)).operations = .ok targets ∧
    b ∈ targets ∧ b ∈ (build options blocks).ids

/-- **What queries say of the end of a chain**, asked for from its start. -/
structure Found (g : Graph) (a b : String) : Prop where
  /-- The end is a dependency of the start. -/
  dependency : b ≠ a → b ∈ g.allDependencies a
  /-- The start is a dependent of the end. -/
  dependent : b ≠ a → a ∈ g.allDependents b
  /-- There is a path from the start to the end. -/
  path : b ≠ a → g.path a b ≠ []
  /-- A change of the end affects the start. -/
  impact : b ≠ a → a ∈ (g.impact b).direct ∨ a ∈ (g.impact b).transitive
  /-- A chain that comes back to its start is seen as a cycle. -/
  cycle : b = a → g.cycles ≠ []

/-- **One link of a chain** is a walk in the graph, or a self reference. -/
theorem RefersTo.reaches_or_self (h : RefersTo options blocks a b) :
    (build options blocks).Reaches a b ∨ a = b ∧ a ∈ (build options blocks).selfIds := by
  obtain ⟨r, targets, hholds, htargets, hb, hmem⟩ := h
  have hr : r ∈ heldReferences blocks :=
    references_declared blocks ▸ mem_references_declared.mpr ⟨a, hholds⟩
  have hmeant : b ∈ r.meantIds options blocks := by
    rw [Reference.targets_eq_meant] at htargets
    rw [Reference.meantIds, htargets]
    exact hb
  by_cases hself : r.source = b
  · -- the reference means its own node: the element itself or a part of it
    rcases hholds.source_eq_or_leads with hsource | hpart
    · have hab : a = b := hsource.symm.trans hself
      exact Or.inr ⟨hab, (mem_selfIds_build options blocks).mpr
        ⟨r, hr, hsource.symm, hab ▸ hmeant⟩⟩
    · have hpart : (build options blocks).Leads a b :=
        (leads_build options blocks).mpr (Or.inl (hself ▸ hpart))
      exact Or.inl (TransGen.single hpart)
  · have hlink : (build options blocks).Leads r.source b :=
      (leads_build options blocks).mpr (Or.inr ⟨r, hr, rfl, hmeant, hself, hmem⟩)
    rcases hholds.source_eq_or_leads with hsource | hpart
    · exact Or.inl (TransGen.single (hsource ▸ hlink))
    · have hpart : (build options blocks).Leads a r.source :=
        (leads_build options blocks).mpr (Or.inl hpart)
      exact Or.inl (TransGen.tail (TransGen.single hpart) hlink)

/-- **A chain is a walk in the graph**, or never leaves one element that refers to itself. -/
theorem reaches_or_self_of_chain (h : TransGen (RefersTo options blocks) a b) :
    (build options blocks).Reaches a b ∨ a = b ∧ a ∈ (build options blocks).selfIds := by
  induction h with
  | single hab => exact hab.reaches_or_self
  | tail _ hbc ih =>
    rcases ih with hab | ⟨rfl, -⟩
    · rcases hbc.reaches_or_self with hbc | ⟨rfl, -⟩
      · exact Or.inl (hab.trans hbc)
      · exact Or.inl hab
    · exact hbc.reaches_or_self

/-- **The end of every chain is found from its start.** -/
theorem found_of_chain (h : TransGen (RefersTo options blocks) a b) :
    Found (build options blocks).toGraph a b := by
  have hwf := wellFormed_build options blocks
  have hreaches : b ≠ a → (build options blocks).Reaches a b := fun hne =>
    (reaches_or_self_of_chain h).resolve_right fun hself => hne hself.1.symm
  have hdependent : b ≠ a → a ∈ (build options blocks).allDependents b := fun hne =>
    hwf.mem_allDependents.mpr ⟨hne.symm, hreaches hne⟩
  exact {
    dependency := fun hne => hwf.mem_allDependencies.mpr ⟨hne, hreaches hne⟩
    dependent := hdependent
    path := fun hne => hwf.path_ne_nil (hreaches hne) hne
    impact := fun hne => Graph.mem_impact (hdependent hne)
    cycle := by
      rintro rfl
      rcases reaches_or_self_of_chain h with hbb | ⟨-, hself⟩
      · exact hwf.cycles_ne_nil_of_reaches hbb
      · exact Graph.cycles_ne_nil_of_self hself }

/-- Two files: a type definition in one, and a complex type and an enumeration in the other. -/
def twoFiles : List (String × SchemaBlock) :=
  [("a.xml",
    { SchemaBlock.bare (some "A") none with
      typeDefinitions := [⟨"T", "B.U", []⟩] }),
    ("b.xml",
    { SchemaBlock.bare (some "B") none with
      complexTypes := [⟨"U", none, false, false, [], [⟨"p", "V", true, none, none, []⟩], [], []⟩]
      enumTypes := [⟨"V", none, false, [], []⟩] })]

/-- **The type definition depends on the enumeration** of the other file. -/
theorem found_twoFiles :
    TransGen (RefersTo .standard twoFiles) "A.T" "B.V" ∧
      Found (build .standard twoFiles).toGraph "A.T" "B.V" := by
  have hT : RefersTo .standard twoFiles "A.T" "B.U" :=
    ⟨⟨"A.T", .type "B.U", .baseType, "A", "a.xml"⟩, ["B.U"],
      ⟨_, List.mem_cons_self, ⟨"A", "a.xml"⟩, rfl, .typeDefinition ⟨"T", "B.U", []⟩,
        by decide, by decide, by decide⟩,
      by decide +kernel, by decide, by decide +kernel⟩
  have hU : RefersTo .standard twoFiles "B.U" "B.V" :=
    ⟨⟨"B.U.property.p", .type "V", .property, "B", "b.xml"⟩, ["B.V"],
      ⟨_, List.mem_cons_of_mem _ List.mem_cons_self, ⟨"B", "b.xml"⟩, rfl,
        .complexType ⟨"U", none, false, false, [], [⟨"p", "V", true, none, none, []⟩], [], []⟩,
        by decide, by decide, by decide⟩,
      by decide +kernel, by decide, by decide +kernel⟩
  have hchain := TransGen.tail (TransGen.single hT) hU
  exact ⟨hchain, found_of_chain hchain⟩

end ReferenceGraph

end CsdlAudit
