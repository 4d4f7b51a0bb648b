import CsdlAudit.Proofs.Conflict.Passes
import CsdlAudit.Proofs.Registry.Contents

/-!
# Conflicts stay

Further calls only put more values under a key (`Registry.Extends`). A pass reports a key because
some of its values differ, and these still differ when there are more of them: a copy of a
definition, a block without types or a third value takes nothing back. So each pass reports each of
its keys again, in the same words and with all the files that it named before
(`conflictsStay_ofCalls`). New are at most further files, and further details.
-/

namespace CsdlAudit

/-- **A conflict has grown into another**, which says the same of at least the same files. -/
structure Conflict.GrowsInto (c d : Conflict) : Prop where
  /-- The types are the same. -/
  type : d.type = c.type
  /-- Both are about the same namespace. -/
  namespaceName : d.namespaceName = c.namespaceName
  /-- Both are about the same element. -/
  elementName : d.elementName = c.elementName
  /-- Both say the same. -/
  description : d.description = c.description
  /-- No file is lost. -/
  files : c.files ⊆ d.files

/-! ## One pass after the other -/

namespace Registry.Extends

variable {r s : Registry} {c : Conflict}

theorem exists_duplicateNamespace (h : r.Extends s) (hc : c ∈ duplicateNamespaces r) :
    ∃ d ∈ duplicateNamespaces s, c.GrowsInto d := by
  obtain ⟨namespaceName, hknown, hfiles, rfl⟩ := mem_duplicateNamespaces_iff.mp hc
  have hinfos := (h.infos namespaceName).subset
  exact ⟨_, mem_duplicateNamespaces_iff.mpr
    ⟨namespaceName, h.namespaces hknown, one_lt_completeFiles_of_subset hinfos hfiles, rfl⟩,
    rfl, rfl, rfl, rfl, completeFiles_subset hinfos⟩

theorem exists_duplicateElement (h : r.Extends s) (hc : c ∈ duplicateElements r) :
    ∃ d ∈ duplicateElements s, c.GrowsInto d := by
  obtain ⟨key, hclash, rfl⟩ := mem_duplicateElements_iff.mp hc
  have hrecords := (h.records key).subset
  exact ⟨_, mem_duplicateElements_iff.mpr ⟨key, clash_of_subset hrecords hclash, rfl⟩,
    rfl, rfl, rfl, rfl, filesOf_subset hrecords⟩

theorem exists_incompatibleDefinition {policy : DefinitionPolicy} (h : r.Extends s)
    (hc : c ∈ incompatibleDefinitions policy r) :
    ∃ d ∈ incompatibleDefinitions policy s, c.GrowsInto d := by
  obtain ⟨key, htest, rfl⟩ := mem_incompatibleDefinitions_iff.mp hc
  obtain ⟨hclash, hincompatible⟩ := Bool.and_eq_true_iff.mp htest
  have hrecords := (h.records key).subset
  have htest' : (clash (s.records key) && incompatible policy (s.records key)) = true :=
    Bool.and_eq_true_iff.mpr
      ⟨clash_of_subset hrecords hclash, incompatible_of_subset hrecords hincompatible⟩
  exact ⟨_, mem_incompatibleDefinitions_iff.mpr ⟨key, htest', rfl⟩,
    rfl, rfl, rfl, rfl, filesOf_subset hrecords⟩

theorem exists_annotationConflict (h : r.Extends s) (hc : c ∈ annotationConflicts r) :
    ∃ d ∈ annotationConflicts s, c.GrowsInto d := by
  obtain ⟨key, hvalues, rfl⟩ := mem_annotationConflicts_iff.mp hc
  have hrecords := (h.annotations key).subset
  refine ⟨_, mem_annotationConflicts_iff.mpr
    ⟨key, valuesDiffer_of_subset hrecords hvalues, rfl⟩, rfl, rfl, rfl, rfl, fun file hfile => ?_⟩
  obtain ⟨a, ha, hfile⟩ := mem_files_valueConflictOf.mp hfile
  exact mem_files_valueConflictOf.mpr ⟨a, hrecords ha, hfile⟩

/-- **What is detected in a registry is detected when it has grown.** -/
theorem exists_detect {options : DetectOptions} (h : r.Extends s) (hc : c ∈ detect options r) :
    ∃ d ∈ detect options s, c.GrowsInto d := by
  rcases mem_detect_iff.mp hc with hc | hc | hc | ⟨hasked, hc⟩
  · obtain ⟨d, hd, hgrows⟩ := h.exists_duplicateNamespace hc
    exact ⟨d, mem_detect_iff.mpr (.inl hd), hgrows⟩
  · obtain ⟨d, hd, hgrows⟩ := h.exists_duplicateElement hc
    exact ⟨d, mem_detect_iff.mpr (.inr (.inl hd)), hgrows⟩
  · obtain ⟨d, hd, hgrows⟩ := h.exists_incompatibleDefinition hc
    exact ⟨d, mem_detect_iff.mpr (.inr (.inr (.inl hd))), hgrows⟩
  · obtain ⟨d, hd, hgrows⟩ := h.exists_annotationConflict hc
    exact ⟨d, mem_detect_iff.mpr (.inr (.inr (.inr ⟨hasked, hd⟩))), hgrows⟩

end Registry.Extends

/-! ## After further calls -/

/-- **No conflict is lost by further calls**, whatever the calls and the options. -/
theorem conflictsStay_ofCalls (options : DetectOptions) (calls later : List (String × Block)) :
    ∀ c ∈ detect options (Registry.ofCalls calls),
      ∃ d ∈ detect options (Registry.ofCalls (calls ++ later)), c.GrowsInto d := by
  intro c hc
  have hextends : (Registry.ofCalls calls).Extends (Registry.ofCalls (calls ++ later)) := by
    rw [Registry.ofCalls, Registry.ofCalls, List.foldl_append]
    exact Registry.extends_foldl _ later
  exact hextends.exists_detect hc

/-- A third file that agrees with the first, and a fourth that declares nothing. -/
def agreeing : List (String × Block) :=
  [("c.xml", Block.fresh 2 (remarked "x")), ("d.xml", Block.fresh 3 (.bare (some "N") none))]

/-- The conflict of the two files that annotate one entity type differently. -/
def remarkConflict : Conflict :=
  .annotationConflict "N" "E" "T" [("x", "a.xml"), ("y", "b.xml")]

/-- **A file that agrees with one of two settles nothing**: it is named as a third. -/
theorem conflictsStay_remarks :
    remarkConflict ∈ detect .standard (Registry.ofCalls remarks) ∧
      (∃ d ∈ detect .standard (Registry.ofCalls (remarks ++ agreeing)),
        remarkConflict.GrowsInto d) ∧
      (annotationConflicts (Registry.ofCalls (remarks ++ agreeing))).map (·.files) =
        [["a.xml", "b.xml", "c.xml"]] := by
  have hdiffer : remarkConflict ∈ annotationConflicts (Registry.ofCalls remarks) := by
    decide +kernel
  have hdetected : remarkConflict ∈ detect .standard (Registry.ofCalls remarks) :=
    mem_detect_iff.mpr (.inr (.inr (.inr ⟨rfl, hdiffer⟩)))
  exact ⟨hdetected, conflictsStay_ofCalls .standard remarks agreeing _ hdetected,
    by decide +kernel⟩

end CsdlAudit
