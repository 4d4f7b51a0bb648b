import CsdlAudit.Proofs.Conflict.Definitions
import CsdlAudit.Schema.Builder

/-!
# The passes do not depend on the order of ingestion

Calls in another order file the same under every key, in another order. What a pass asks of the
records of one key is whether some two of them differ, and which files they name; neither depends on
their order (`clash_eq_of_perm`, `incompatible_eq_of_perm`, `valuesDiffer_eq_of_perm`,
`filesOf_eq_of_perm`). Only the details of a conflict list the records one by one.

So the passes over namespaces and elements give one list for all orders of the calls, and the passes
over definitions and annotations give lists that differ in the details alone
(`passesAgree_of_perm`).
-/

namespace CsdlAudit

/-! ## The records of one key in another order -/

section Records

variable {records records' : List ElementRecord}

theorem filesOf_eq_of_perm (h : records.Perm records') : filesOf records = filesOf records' :=
  Ascending.ofList_eq_of_mem_iff fun _ => (h.map _).mem_iff

/-- Whether some two members stand in a relation is not a matter of their order. -/
theorem exists_pair_iff_of_perm {α : Type} {l l' : List α} (h : l.Perm l') (p : α → α → Prop) :
    (∃ a ∈ l, ∃ b ∈ l, p a b) ↔ ∃ a ∈ l', ∃ b ∈ l', p a b := by
  simp only [h.mem_iff]

theorem clash_eq_of_perm (h : records.Perm records') : clash records = clash records' := by
  rw [Bool.eq_iff_iff, clash_iff, clash_iff]
  exact exists_pair_iff_of_perm h _

theorem kindsDiffer_eq_of_perm (h : records.Perm records') :
    kindsDiffer records = kindsDiffer records' := by
  rw [Bool.eq_iff_iff, kindsDiffer_iff, kindsDiffer_iff]
  exact exists_pair_iff_of_perm h _

theorem incompatible_eq_of_perm (policy : DefinitionPolicy) (h : records.Perm records') :
    incompatible policy records = incompatible policy records' := by
  have hprints :
      printsDiffer (distinctBodies records) = printsDiffer (distinctBodies records') := by
    rw [Bool.eq_iff_iff, printsDiffer_distinctBodies_iff, printsDiffer_distinctBodies_iff]
    exact exists_pair_iff_of_perm h _
  simp only [incompatible, kindsDiffer_eq_of_perm h, hprints]

end Records

section Annotations

variable {records records' : List AnnotationRecord}

theorem valuesDiffer_iff : valuesDiffer records = true ↔
    ∃ a ∈ records, ∃ b ∈ records, a.value ≠ b.value := by
  cases records with
  | nil => simp [valuesDiffer]
  | cons r rest => exact any_ne_iff

theorem valuesDiffer_eq_of_perm (h : records.Perm records') :
    valuesDiffer records = valuesDiffer records' := by
  rw [Bool.eq_iff_iff, valuesDiffer_iff, valuesDiffer_iff]
  exact exists_pair_iff_of_perm h _

/-- Dropping repeats loses no member. -/
theorem mem_dropRepeats {α : Type} [DecidableEq α] {a : α} {l : List α} :
    a ∈ dropRepeats l ↔ a ∈ l := by
  fun_induction dropRepeats l with
  | case1 => rfl
  | case2 b => rfl
  | case3 b rest ih => simp [ih]
  | case4 b c rest hne ih => rw [List.mem_cons, ih, ← List.mem_cons]

end Annotations

/-! ## Conflicts without their details -/

/-- The conflict with nothing said of what it was found in. -/
def Conflict.withoutDetails (c : Conflict) : Conflict := { c with details := "" }

theorem withoutDetails_annotationConflict {namespaceName element term : String}
    {values values' : List (String × String)} (h : ∀ v, v ∈ values ↔ v ∈ values') :
    (Conflict.annotationConflict namespaceName element term values).withoutDetails =
      (Conflict.annotationConflict namespaceName element term values').withoutDetails := by
  have hfiles : Ascending.ofList (values.map Prod.snd) = Ascending.ofList (values'.map Prod.snd) :=
    Ascending.ofList_eq_of_mem_iff fun file => by
      rw [List.mem_map, List.mem_map]
      exact exists_congr fun v => and_congr_left fun _ => h v
  simp only [Conflict.withoutDetails, Conflict.annotationConflict, hfiles]

/-! ## The passes over registries that file the same -/

namespace Registry.FilesAlike

variable {r s : Registry}

theorem duplicateNamespaces_eq (h : FilesAlike r s) :
    duplicateNamespaces r = duplicateNamespaces s := by
  have hnamespaces : r.namespaces = s.namespaces := congrArg Index.keys h.files
  rw [duplicateNamespaces, duplicateNamespaces, hnamespaces]
  refine List.filterMap_congr fun namespaceName _ => ?_
  have hfiles : completeFiles (r.infos.get namespaceName) =
      completeFiles (s.infos.get namespaceName) :=
    Ascending.ofList_eq_of_mem_iff fun _ =>
      (((h.infos.get namespaceName).filter _).map _).mem_iff
  simp only [hfiles]

theorem duplicateElements_eq (h : FilesAlike r s) : duplicateElements r = duplicateElements s := by
  refine h.elements.filterMap_eq fun key records records' hperm => ?_
  simp only [clash_eq_of_perm hperm, filesOf_eq_of_perm hperm]

theorem incompatibleDefinitions_eq (h : FilesAlike r s) (policy : DefinitionPolicy) :
    (incompatibleDefinitions policy r).map Conflict.withoutDetails =
      (incompatibleDefinitions policy s).map Conflict.withoutDetails := by
  rw [incompatibleDefinitions, incompatibleDefinitions, List.map_filterMap, List.map_filterMap]
  refine h.elements.filterMap_eq fun key records records' hperm => ?_
  simp only [clash_eq_of_perm hperm, incompatible_eq_of_perm policy hperm]
  split
  · simp only [Option.map_some, Conflict.withoutDetails, Conflict.incompatibleDefinition,
      filesOf_eq_of_perm hperm]
  · rfl

theorem annotationConflicts_eq (h : FilesAlike r s) :
    (annotationConflicts r).map Conflict.withoutDetails =
      (annotationConflicts s).map Conflict.withoutDetails := by
  rw [annotationConflicts, annotationConflicts, List.map_filterMap, List.map_filterMap]
  refine h.annotations.filterMap_eq fun key records records' hperm => ?_
  simp only [valuesDiffer_eq_of_perm hperm]
  split
  · rw [Option.map_some, Option.map_some]
    refine congrArg some (withoutDetails_annotationConflict fun v => ?_)
    rw [mem_dropRepeats, mem_dropRepeats, (hperm.map _).mem_iff]
  · rfl

end Registry.FilesAlike

/-- **Two registries report the same**, up to the details of definitions and annotations. -/
structure PassesAgree (r s : Registry) : Prop where
  /-- The pass over namespaces gives one list. -/
  namespaces : duplicateNamespaces r = duplicateNamespaces s
  /-- The pass over elements gives one list. -/
  elements : duplicateElements r = duplicateElements s
  /-- The pass over definitions gives lists that differ in the details only, by either policy. -/
  definitions : ∀ policy, (incompatibleDefinitions policy r).map Conflict.withoutDetails =
    (incompatibleDefinitions policy s).map Conflict.withoutDetails
  /-- The pass over annotations gives lists that differ in the details only. -/
  annotations : (annotationConflicts r).map Conflict.withoutDetails =
    (annotationConflicts s).map Conflict.withoutDetails

/-- **The passes do not depend on the order of the calls.** -/
theorem passesAgree_of_perm {calls calls' : List (String × Block)} (h : calls.Perm calls') :
    PassesAgree (Registry.ofCalls calls) (Registry.ofCalls calls') where
  namespaces := (Registry.filesAlike_ofCalls h).duplicateNamespaces_eq
  elements := (Registry.filesAlike_ofCalls h).duplicateElements_eq
  definitions := (Registry.filesAlike_ofCalls h).incompatibleDefinitions_eq
  annotations := (Registry.filesAlike_ofCalls h).annotationConflicts_eq

/-- A block with one entity type, whose annotation has the value. -/
def remarked (value : String) : SchemaBlock :=
  { SchemaBlock.bare (some "N") none with
    entityTypes := [{ StructuredType.named "E" with annotations := [.of "T" value] }] }

/-- Two files that annotate one entity type differently. -/
def remarks : List (String × Block) :=
  [("a.xml", Block.fresh 0 (remarked "x")), ("b.xml", Block.fresh 1 (remarked "y"))]

/-- **The details list the values in the order of the calls**, all else is the same. -/
theorem passesAgree_remarks : remarks.Perm remarks.reverse ∧
    PassesAgree (Registry.ofCalls remarks) (Registry.ofCalls remarks.reverse) ∧
    (annotationConflicts (Registry.ofCalls remarks)).map (·.details) =
      ["Values: 'x' in a.xml, 'y' in b.xml"] ∧
    (annotationConflicts (Registry.ofCalls remarks.reverse)).map (·.details) =
      ["Values: 'y' in b.xml, 'x' in a.xml"] := by
  have hperm : remarks.Perm remarks.reverse := (List.reverse_perm remarks).symm
  exact ⟨hperm, passesAgree_of_perm hperm, by decide +kernel, by decide +kernel⟩

end CsdlAudit
