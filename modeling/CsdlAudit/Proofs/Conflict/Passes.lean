import CsdlAudit.Proofs.Conflict.Order

/-!
# What a pass makes of one key

A pass goes over the entries of an index, but what it reports of a key is read off the values of the
key alone. So a conflict of a pass is one that it makes of some key (`mem_duplicateNamespaces_iff`
and its siblings, one for each pass), and the entries need not be looked at again.

What a pass asks of the values of a key is whether some of them differ, and what it names are their
files. Both can only grow with the values (`clash_of_subset`, `incompatible_of_subset`,
`valuesDiffer_of_subset`, `filesOf_subset`).

As the keys of an index ascend, so do the conflicts of a pass over it, and no key has two
(`onePerKey_filterMap`).
-/

namespace CsdlAudit

variable {r : Registry} {c : Conflict}

/-! ## The conflicts of a pass -/

/-- **A namespace is reported** when several files carry its schema. -/
theorem mem_duplicateNamespaces_iff : c ∈ duplicateNamespaces r ↔ ∃ namespaceName ∈ r.namespaces,
    1 < (completeFiles (r.infos.get namespaceName)).length ∧
      .duplicateNamespaceSchema namespaceName (completeFiles (r.infos.get namespaceName)) = c := by
  rw [duplicateNamespaces, List.mem_filterMap]
  simp only [Option.ite_none_right_eq_some, Option.some.injEq]

/-- **An element is reported** when its records clash. -/
theorem mem_duplicateElements_iff : c ∈ duplicateElements r ↔ ∃ key,
    clash (r.records key) = true ∧
      .duplicateElement key.namespaceName key.name (filesOf (r.records key)) = c := by
  rw [duplicateElements, Index.mem_filterMap_toList_iff fun _ => rfl]
  simp only [Option.ite_none_right_eq_some, Option.some.injEq, Registry.records]

/-- **Definitions are reported** when they clash and are incompatible. -/
theorem mem_incompatibleDefinitions_iff {policy : DefinitionPolicy} :
    c ∈ incompatibleDefinitions policy r ↔ ∃ key,
      (clash (r.records key) && incompatible policy (r.records key)) = true ∧
        incompatibilityOf key (r.records key) = c := by
  rw [incompatibleDefinitions, Index.mem_filterMap_toList_iff fun _ => rfl]
  simp only [Option.ite_none_right_eq_some, Option.some.injEq, Registry.records,
    incompatibilityOf]

/-- The conflict of annotations with different values, as a pass makes it. -/
def valueConflictOf (key : AnnotationKey) (records : List AnnotationRecord) : Conflict :=
  .annotationConflict key.namespaceName key.element key.term
    (dropRepeats (records.map fun s => (s.value, s.sourceFile)))

/-- **Annotations are reported** when their values differ. -/
theorem mem_annotationConflicts_iff : c ∈ annotationConflicts r ↔ ∃ key,
    valuesDiffer (r.annotations.get key) = true ∧
      valueConflictOf key (r.annotations.get key) = c := by
  rw [annotationConflicts, Index.mem_filterMap_toList_iff fun _ => rfl]
  simp only [Option.ite_none_right_eq_some, Option.some.injEq, valueConflictOf]

/-- The files of such a conflict are those of the annotations. -/
theorem mem_files_valueConflictOf {key : AnnotationKey} {records : List AnnotationRecord}
    {file : String} :
    file ∈ (valueConflictOf key records).files ↔ ∃ a ∈ records, a.sourceFile = file := by
  rw [valueConflictOf, Conflict.annotationConflict, Ascending.mem_ofList]
  simp only [List.mem_map, mem_dropRepeats, exists_exists_and_eq_and]

theorem mem_detect_iff {options : DetectOptions} : c ∈ detect options r ↔
    c ∈ duplicateNamespaces r ∨ c ∈ duplicateElements r ∨
      c ∈ incompatibleDefinitions options.policy r ∨
      options.annotations = true ∧ c ∈ annotationConflicts r := by
  simp only [detect, List.mem_append, List.mem_ite_nil_right, or_assoc]

/-! ## More values of a key -/

/-- Some two members stand in a relation still when there are more members. -/
theorem exists_pair_of_subset {α : Type} {l l' : List α} (h : l ⊆ l') {p : α → α → Prop}
    (hl : ∃ a ∈ l, ∃ b ∈ l, p a b) : ∃ a ∈ l', ∃ b ∈ l', p a b :=
  let ⟨a, ha, b, hb, hab⟩ := hl
  ⟨a, h ha, b, h hb, hab⟩

section Records

variable {records records' : List ElementRecord}

/-- **Records are incompatible** when two of them differ in kind, or two of them differ at all by
the measure of the policy. -/
theorem incompatible_iff {policy : DefinitionPolicy} : incompatible policy records = true ↔
    (∃ a ∈ records, ∃ b ∈ records, a.kind ≠ b.kind) ∨ policy = .conservative ∨
      ∃ a ∈ records, ∃ b ∈ records,
        a.object.definition.fingerprint ≠ b.object.definition.fingerprint := by
  cases policy with
  | conservative => simp [incompatible]
  | structural =>
    rw [incompatible, Bool.or_eq_true, kindsDiffer_iff, printsDiffer_distinctBodies_iff]
    exact or_congr_right (or_iff_right DefinitionPolicy.noConfusion).symm

theorem filesOf_subset (h : records ⊆ records') : filesOf records ⊆ filesOf records' :=
  Ascending.ofList_subset (List.map_subset _ h)

theorem clash_of_subset (h : records ⊆ records') (hclash : clash records = true) :
    clash records' = true :=
  clash_iff.mpr (exists_pair_of_subset h (clash_iff.mp hclash))

theorem incompatible_of_subset {policy : DefinitionPolicy} (h : records ⊆ records')
    (hrecords : incompatible policy records = true) : incompatible policy records' = true :=
  incompatible_iff.mpr ((incompatible_iff.mp hrecords).imp (exists_pair_of_subset h)
    (Or.imp_right (exists_pair_of_subset h)))

end Records

theorem valuesDiffer_of_subset {records records' : List AnnotationRecord}
    (h : records ⊆ records') (hrecords : valuesDiffer records = true) :
    valuesDiffer records' = true :=
  valuesDiffer_iff.mpr (exists_pair_of_subset h (valuesDiffer_iff.mp hrecords))

section Infos

variable {infos infos' : List BlockInfo}

theorem completeFiles_subset (h : infos ⊆ infos') : completeFiles infos ⊆ completeFiles infos' :=
  Ascending.ofList_subset (List.map_subset _ (List.filter_subset _ h))

theorem one_lt_completeFiles_of_subset (h : infos ⊆ infos')
    (hinfos : 1 < (completeFiles infos).length) : 1 < (completeFiles infos').length := by
  rw [completeFiles, Ascending.one_lt_length_ofList] at hinfos ⊢
  exact exists_pair_of_subset (List.map_subset _ (List.filter_subset _ h)) hinfos

end Infos

/-! ## One conflict for each key -/

section Keys

variable {κ ν : Type} [Ord κ]

/-- **Exactly one conflict for each key with a property**, in the order of the keys, and no other:
the conflicts stand one by one beside the keys, each `about` its own. -/
def OnePerKey (property : κ → Prop) (about : κ → Conflict → Prop) (conflicts : List Conflict) :
    Prop :=
  ∃ keys : List κ, keys.Pairwise (compare · · = .lt) ∧ (∀ k, k ∈ keys ↔ property k) ∧
    List.Forall₂ about keys conflicts

/-- The same conflicts by other words for the property, and by more that is known of each. -/
theorem OnePerKey.mono {property property' : κ → Prop} {about about' : κ → Conflict → Prop}
    {conflicts : List Conflict} (h : OnePerKey property about conflicts)
    (hproperty : ∀ k, property k ↔ property' k)
    (habout : ∀ k c, property k → about k c → about' k c) :
    OnePerKey property' about' conflicts := by
  obtain ⟨keys, hascending, hkeys, hconflicts⟩ := h
  refine ⟨keys, hascending, fun k => (hkeys k).trans (hproperty k), ?_⟩
  obtain ⟨hlength, hzip⟩ := List.forall₂_iff_zip.mp hconflicts
  refine List.forall₂_iff_zip.mpr ⟨hlength, fun {k c} hkc => ?_⟩
  exact habout k c ((hkeys k).mp (List.of_mem_zip hkc).1) (hzip hkc)

/-- **A pass over an index** makes one conflict of each key whose values meet its condition. -/
theorem onePerKey_filterMap [Std.TransOrd κ] [Std.LawfulEqOrd κ] (m : Index κ ν)
    (test : List ν → Bool) (make : κ → List ν → Conflict) (hempty : test [] = false) :
    OnePerKey (fun k => test (m.get k) = true) (fun k c => make k (m.get k) = c)
      (m.toList.filterMap fun e => if test e.2 then some (make e.1 e.2) else none) := by
  refine ⟨m.keys.filter fun k => test (m.get k), m.pairwise_keys.filter _, fun k => ?_, ?_⟩
  · rw [List.mem_filter, and_iff_right_iff_imp]
    intro hk
    refine List.mem_map.mpr ⟨_, Index.mem_toList_of_get_ne_nil fun hnil => ?_, rfl⟩
    rw [hnil, hempty] at hk
    cases hk
  · have hmade : (m.toList.filterMap fun e => if test e.2 then some (make e.1 e.2) else none) =
        (m.keys.filter fun k => test (m.get k)).map fun k => make k (m.get k) := by
      rw [Index.toList_eq_map_keys, List.filterMap_map, ← List.filterMap_eq_map,
        ← List.filterMap_eq_filter, List.filterMap_filterMap]
      refine List.filterMap_congr fun k _ => ?_
      cases htest : test (m.get k) <;> simp [htest, Option.guard]
    rw [hmade, List.forall₂_map_right_iff, List.forall₂_same]
    exact fun _ _ => rfl

end Keys

end CsdlAudit
