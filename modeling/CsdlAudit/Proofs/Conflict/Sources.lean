import CsdlAudit.Proofs.Conflict.Passes
import CsdlAudit.Proofs.Registry.Contents

/-!
# The files that a finding names

A finding names files in ascending order, and how many of them depends on its type: two at least for
what several files define or carry, one for a reference that leads nowhere, some for the rest.
`Conflict.Sourced` says so, and that the files are among those that take part; files that share a
namespace are moreover files of that namespace.

The passes over a registry read the files off what the calls filed. The records of an element and
the entries of a namespace come from blocks of the namespace, and these blocks are those of which
`Registry.filesOf?` lists the files (`Registry.exists_filesOf?_ofCalls`). So every finding of every
pass is sourced in the calls (`sourced_of_mem_detect`, `sourced_of_mem_aliasConflicts`).
-/

namespace CsdlAudit

/-- Whether a finding of the type is about what several files share in a namespace. -/
def ConflictType.isShared : ConflictType → Bool
  | .duplicateElement | .duplicateNamespaceSchema | .incompatibleDefinition => true
  | _ => false

/-- **What the files of a finding are**, given which files take part and those of each namespace. -/
structure Conflict.Sourced (known : String → Prop) (filesOf? : String → Option (List String))
    (c : Conflict) : Prop where
  /-- They ascend. -/
  ascending : c.files.Pairwise (· < ·)
  /-- They take part. -/
  known : ∀ file ∈ c.files, known file
  /-- Several files define an element or carry a schema, and they have its namespace. -/
  several : c.type.isShared = true →
    2 ≤ c.files.length ∧ ∃ files, filesOf? c.namespaceName = some files ∧ c.files ⊆ files
  /-- One file has a reference that leads nowhere. -/
  one : c.type = .missingReference → c.files.length = 1
  /-- Some file has a part in a cycle, and in annotations that do not agree. -/
  some : c.type = .circularReference ∨ c.type = .annotationConflict → 1 ≤ c.files.length

/-! ## The passes -/

section Passes

variable {calls : List (String × Block)} {known : String → Prop} {c : Conflict}

/-- A finding about what several files share in a namespace. -/
theorem sourced_of_callsOf (hknown : ∀ call ∈ calls, known call.1)
    (hascending : c.files.Pairwise (· < ·)) (hseveral : 1 < c.files.length)
    (htype : c.type.isShared = true)
    (hfiles : ∀ file ∈ c.files, ∃ call ∈ Registry.callsOf c.namespaceName calls, call.1 = file) :
    c.Sourced known (Registry.ofCalls calls).filesOf? where
  ascending := hascending
  known := fun file hfile =>
    let ⟨call, hcall, hcallfile⟩ := hfiles file hfile
    hcallfile ▸ hknown call (Registry.mem_of_mem_callsOf hcall)
  several := by
    intro _
    obtain ⟨file, hfile⟩ := List.exists_mem_of_length_pos (Nat.lt_of_succ_lt hseveral)
    obtain ⟨call, hcall, -⟩ := hfiles file hfile
    obtain ⟨files, hsome, hmem⟩ := Registry.exists_filesOf?_ofCalls hcall
    exact ⟨hseveral, files, hsome, fun file hfile => (hmem file).mpr (hfiles file hfile)⟩
  one := by
    intro hone
    rw [hone] at htype
    cases htype
  some := fun _ => Nat.le_of_lt hseveral

theorem sourced_of_mem_duplicateNamespaces (hknown : ∀ call ∈ calls, known call.1)
    (h : c ∈ duplicateNamespaces (Registry.ofCalls calls)) :
    c.Sourced known (Registry.ofCalls calls).filesOf? := by
  obtain ⟨namespaceName, -, hseveral, rfl⟩ := mem_duplicateNamespaces_iff.mp h
  refine sourced_of_callsOf hknown (Ascending.pairwise_lt_ofList _) hseveral rfl ?_
  intro file hfile
  obtain ⟨i, hi, rfl⟩ := List.mem_map.mp (Ascending.mem_ofList.mp hfile)
  exact Registry.exists_callsOf_of_mem_infos (List.mem_filter.mp hi).1

/-- A finding about an element names the files of its records. -/
theorem sourced_of_clash (hknown : ∀ call ∈ calls, known call.1) {key : ElementKey}
    (hclash : clash ((Registry.ofCalls calls).records key) = true)
    (hfiles : c.files = filesOf ((Registry.ofCalls calls).records key))
    (hnamespace : c.namespaceName = key.namespaceName)
    (htype : c.type.isShared = true) :
    c.Sourced known (Registry.ofCalls calls).filesOf? := by
  have hseveral : 1 < (filesOf ((Registry.ofCalls calls).records key)).length :=
    of_decide_eq_true (Bool.and_eq_true_iff.mp hclash).1
  refine sourced_of_callsOf hknown (hfiles ▸ Ascending.pairwise_lt_ofList _) (hfiles ▸ hseveral)
    htype fun file hfile => ?_
  rw [hfiles] at hfile
  obtain ⟨a, ha, rfl⟩ := List.mem_map.mp (Ascending.mem_ofList.mp hfile)
  obtain ⟨call, hcall, hfile, -⟩ := Registry.exists_callsOf_of_mem_records ha
  exact ⟨call, hnamespace ▸ hcall, hfile⟩

theorem sourced_of_mem_annotationConflicts (hknown : ∀ call ∈ calls, known call.1)
    (h : c ∈ annotationConflicts (Registry.ofCalls calls)) :
    c.Sourced known (Registry.ofCalls calls).filesOf? := by
  obtain ⟨key, hdiffer, rfl⟩ := mem_annotationConflicts_iff.mp h
  exact {
    ascending := Ascending.pairwise_lt_ofList _
    known := by
      intro file hfile
      obtain ⟨a, ha, rfl⟩ := mem_files_valueConflictOf.mp hfile
      obtain ⟨call, hcall, hfile⟩ := Registry.exists_call_of_mem_annotations ha
      exact hfile ▸ hknown call hcall
    several := fun htype => by cases htype
    one := fun htype => by cases htype
    some := by
      intro _
      obtain ⟨a, ha, -⟩ := valuesDiffer_iff.mp hdiffer
      exact List.length_pos_of_mem (mem_files_valueConflictOf.mpr ⟨a, ha, rfl⟩) }

/-- **What is detected in a registry is sourced in its calls.** -/
theorem sourced_of_mem_detect {options : DetectOptions} (hknown : ∀ call ∈ calls, known call.1)
    (h : c ∈ detect options (Registry.ofCalls calls)) :
    c.Sourced known (Registry.ofCalls calls).filesOf? := by
  rcases mem_detect_iff.mp h with h | h | h | ⟨-, h⟩
  · exact sourced_of_mem_duplicateNamespaces hknown h
  · obtain ⟨key, hclash, rfl⟩ := mem_duplicateElements_iff.mp h
    exact sourced_of_clash hknown hclash rfl rfl rfl
  · obtain ⟨key, htest, rfl⟩ := mem_incompatibleDefinitions_iff.mp h
    exact sourced_of_clash hknown (Bool.and_eq_true_iff.mp htest).1 rfl rfl rfl
  · exact sourced_of_mem_annotationConflicts hknown h

/-! ## Short names -/

theorem mem_of_mem_firstUses {seen : List String} {is : List BlockInfo} {i : BlockInfo}
    (h : i ∈ firstUses seen is) : i ∈ is := by
  induction is generalizing seen with
  | nil => exact h
  | cons j is ih =>
    rw [firstUses] at h
    split at h
    · exact List.mem_cons_of_mem j (ih h)
    · rcases List.mem_cons.mp h with rfl | h
      · exact List.mem_cons_self
      · exact List.mem_cons_of_mem j (ih h)

/-- What is filed of a block: its short name, unless that is empty. -/
def aliasEntries (i : BlockInfo) : List (String × BlockInfo) :=
  (i.aliasName.filter (· ≠ "")).toList.map (·, i)

theorem aliasUses_eq_addAll (r : Registry) :
    aliasUses r = Index.empty.addAll (r.infos.values.flatMap aliasEntries) := by
  unfold aliasUses
  generalize (Index.empty : Index String BlockInfo) = index
  induction r.infos.values generalizing index with
  | nil => rfl
  | cons i is ih =>
    rw [List.foldl_cons, List.flatMap_cons, Index.addAll_append, ih, aliasEntries]
    cases i.aliasName with
    | none => rfl
    | some a => by_cases ha : a = "" <;> simp [ha, Index.addAll, Option.filter]

/-- **The blocks that use a short name** are those of the registry that declare it. -/
theorem get_aliasUses (r : Registry) (a : String) : (aliasUses r).get a =
    r.infos.values.filter fun i => i.aliasName = some a ∧ a ≠ "" := by
  rw [aliasUses_eq_addAll, Index.get_addAll]
  show [] ++ _ = _
  rw [List.nil_append]
  induction r.infos.values with
  | nil => rfl
  | cons i is ih =>
    rw [List.flatMap_cons, List.filter_append, List.map_append, ih, List.filter_cons, aliasEntries]
    cases hname : i.aliasName with
    | none => simp
    | some b =>
      by_cases hb : b = ""
      · subst hb
        by_cases ha : a = ""
        · simp [ha, Option.filter]
        · simp [ha, Ne.symm ha, Option.filter]
      · by_cases ha : a = b
        · subst ha
          simp [hb, Option.filter]
        · simp [ha, Ne.symm ha, hb, Option.filter, Std.LawfulEqCmp.compare_eq_iff_eq]

/-- The blocks that use a short name are blocks of the registry. -/
theorem mem_values_of_mem_aliasUses {r : Registry} {aliasName : String} {i : BlockInfo}
    (h : i ∈ (aliasUses r).get aliasName) : i ∈ r.infos.values :=
  (List.mem_filter.mp (get_aliasUses r aliasName ▸ h)).1

/-- **What is found about short names is sourced in the calls.** -/
theorem sourced_of_mem_aliasConflicts (hknown : ∀ call ∈ calls, known call.1)
    (h : c ∈ aliasConflicts (Registry.ofCalls calls)) :
    c.Sourced known (Registry.ofCalls calls).filesOf? := by
  obtain ⟨e, he, hc⟩ := List.mem_filterMap.mp h
  obtain ⟨-, hc⟩ := Option.ite_none_right_eq_some.mp hc
  obtain rfl := Option.some.inj hc
  exact {
    ascending := Ascending.pairwise_lt_ofList _
    known := by
      intro file hfile
      simp only [Conflict.aliasConflict, Ascending.mem_ofList, List.map_map, List.mem_map,
        Function.comp_apply] at hfile
      obtain ⟨i, hi, rfl⟩ := hfile
      have huse : i ∈ (aliasUses (Registry.ofCalls calls)).get e.1 :=
        (Index.get_of_mem he).symm ▸ mem_of_mem_firstUses hi
      obtain ⟨entry, hentry, hi⟩ := List.mem_flatMap.mp (mem_values_of_mem_aliasUses huse)
      obtain ⟨call, hcall, hfile⟩ :=
        Registry.exists_callsOf_of_mem_infos ((Index.get_of_mem hentry).symm ▸ hi)
      exact hfile ▸ hknown call (Registry.mem_of_mem_callsOf hcall)
    several := fun htype => by cases htype
    one := fun htype => by cases htype
    some := fun htype => by rcases htype with htype | htype <;> cases htype }

end Passes

end CsdlAudit
