import Mathlib.Data.List.Basic
import CsdlAudit.Proofs.Index
import CsdlAudit.Registry.Basic

/-!
# What is filed under a key

A registry comes about by ingesting blocks, one call after the other. Each of its four indexes then
has the entries that the calls make, call by call (`Registry.elements_ofCalls`,
`Registry.files_ofCalls`, `Registry.infos_ofCalls`, `Registry.annotations_ofCalls`). So the records
of a key are those that the calls filed under it (`Registry.records_ofCalls`): none is lost, none is
moved to another key, and a block without a namespace files nothing. The files and the blocks of
namespaces are filed apart from each other, and yet under the same namespaces
(`Registry.namespaces_ofCalls`). And calls in another order make indexes that are alike
(`Registry.filesAlike_ofCalls`).
-/

namespace CsdlAudit

/-- **A block is of the namespace that it names**, unless the name is empty. -/
theorem SchemaBlock.ownNamespace?_eq_some_iff {b : SchemaBlock} {namespaceName : String} :
    b.ownNamespace? = some namespaceName ↔
      b.namespaceName = some namespaceName ∧ namespaceName ≠ "" := by
  unfold ownNamespace?
  cases b.namespaceName with
  | none => simp
  | some n =>
    rw [Option.ite_none_left_eq_some, Option.some.injEq]
    constructor
    · rintro ⟨hne, rfl⟩
      exact ⟨rfl, hne⟩
    · rintro ⟨rfl, hne⟩
      exact ⟨hne, rfl⟩

/-- A block has no namespace when it names none or an empty one. -/
theorem SchemaBlock.ownNamespace?_eq_none_iff {b : SchemaBlock} :
    b.ownNamespace? = none ↔ b.namespaceName.getD "" = "" := by
  rw [Option.eq_none_iff_forall_ne_some]
  simp only [ne_eq, ownNamespace?_eq_some_iff]
  cases b.namespaceName <;> simp

namespace Registry

/-- **The registry after a sequence of calls**, each with a file and a block of it. -/
def ofCalls (calls : List (String × Block)) : Registry :=
  calls.foldl (fun r c => (r.ingest c.1 c.2).1) empty

/-- **What one call files under a key**: a record for each object of that name, if the block has the
namespace. -/
def filed (key : ElementKey) (call : String × Block) : List ElementRecord :=
  match call.2.schema.ownNamespace? with
  | none => []
  | some namespaceName =>
    (call.2.objects.filter fun o => key = ⟨namespaceName, o.definition.elementName⟩).map fun o =>
      ⟨key, o, call.1⟩

/-! ## The entries of a call -/

/-- The definitions that a call files, each under its key. -/
def elementEntries (call : String × Block) : List (ElementKey × ElementRecord) :=
  match call.2.schema.ownNamespace? with
  | none => []
  | some namespaceName =>
    call.2.objects.map fun o =>
      let key : ElementKey := ⟨namespaceName, o.definition.elementName⟩
      (key, ⟨key, o, call.1⟩)

/-- The file of a call, under the namespace of its block. -/
def fileEntries (call : String × Block) : List (String × String) :=
  match call.2.schema.ownNamespace? with
  | none => []
  | some namespaceName => [(namespaceName, call.1)]

/-- What a call files about its block, under the namespace. -/
def infoEntries (call : String × Block) : List (String × BlockInfo) :=
  match call.2.schema.ownNamespace? with
  | none => []
  | some namespaceName =>
    [(namespaceName,
      ⟨namespaceName, call.2.schema.aliasName, call.1, call.2.schema.isComplete⟩)]

/-- The annotations that a call files, each under its place and term. -/
def annotationEntries (call : String × Block) : List (AnnotationKey × AnnotationRecord) :=
  match call.2.schema.ownNamespace? with
  | none => []
  | some namespaceName =>
    (call.2.schema.placedAnnotations namespaceName).map fun p =>
      (⟨p.1, p.2.1, p.2.2.termKey⟩, ⟨p.2.2.valueText, call.1⟩)

/-- **One call adds its entries** to each index. -/
theorem ingest_entries (r : Registry) (call : String × Block) :
    (r.ingest call.1 call.2).1.elements = r.elements.addAll (elementEntries call) ∧
      (r.ingest call.1 call.2).1.files = r.files.insertAll (fileEntries call) ∧
      (r.ingest call.1 call.2).1.infos = r.infos.addAll (infoEntries call) ∧
      (r.ingest call.1 call.2).1.annotations = r.annotations.addAll (annotationEntries call) := by
  unfold ingest elementEntries fileEntries infoEntries annotationEntries
  cases call.2.schema.ownNamespace? with
  | none => exact ⟨rfl, rfl, rfl, rfl⟩
  | some namespaceName =>
    refine ⟨?_, rfl, rfl, ?_⟩
    · rw [Index.addAll, List.foldl_map]
      rfl
    · rw [Index.addAll, List.foldl_map]
      rfl

/-- Calls add their entries, one call after the other. -/
theorem foldl_ingest_entries (calls : List (String × Block)) (r : Registry) :
    let r' := calls.foldl (fun r c => (r.ingest c.1 c.2).1) r
    r'.elements = r.elements.addAll (calls.flatMap elementEntries) ∧
      r'.files = r.files.insertAll (calls.flatMap fileEntries) ∧
      r'.infos = r.infos.addAll (calls.flatMap infoEntries) ∧
      r'.annotations = r.annotations.addAll (calls.flatMap annotationEntries) := by
  induction calls generalizing r with
  | nil => exact ⟨rfl, rfl, rfl, rfl⟩
  | cons call calls ih =>
    obtain ⟨helements, hfiles, hinfos, hannotations⟩ := ih (r.ingest call.1 call.2).1
    obtain ⟨he, hf, hi, ha⟩ := ingest_entries r call
    simp only [List.flatMap_cons, Index.addAll_append, Index.insertAll_append, ← he, ← hf, ← hi,
      ← ha]
    exact ⟨helements, hfiles, hinfos, hannotations⟩

theorem elements_ofCalls (calls : List (String × Block)) :
    (ofCalls calls).elements = Index.empty.addAll (calls.flatMap elementEntries) :=
  (foldl_ingest_entries calls empty).1

theorem files_ofCalls (calls : List (String × Block)) :
    (ofCalls calls).files = Index.empty.insertAll (calls.flatMap fileEntries) :=
  (foldl_ingest_entries calls empty).2.1

theorem infos_ofCalls (calls : List (String × Block)) :
    (ofCalls calls).infos = Index.empty.addAll (calls.flatMap infoEntries) :=
  (foldl_ingest_entries calls empty).2.2.1

theorem annotations_ofCalls (calls : List (String × Block)) :
    (ofCalls calls).annotations = Index.empty.addAll (calls.flatMap annotationEntries) :=
  (foldl_ingest_entries calls empty).2.2.2

/-! ## The namespaces -/

/-- The entries of files are those of blocks, with no more than the file. -/
theorem flatMap_fileEntries (calls : List (String × Block)) :
    calls.flatMap fileEntries = (calls.flatMap infoEntries).map fun e => (e.1, e.2.sourceFile) := by
  rw [List.map_flatMap]
  refine List.flatMap_congr fun call _ => ?_
  unfold fileEntries infoEntries
  cases call.2.schema.ownNamespace? <;> rfl

/-- **The files of a namespace are those of its blocks.** -/
theorem mem_files_ofCalls_iff {calls : List (String × Block)} {namespaceName file : String} :
    file ∈ (ofCalls calls).files.get namespaceName ↔
      ∃ i ∈ (ofCalls calls).infos.get namespaceName, i.sourceFile = file := by
  have hfiles : file ∉ (Index.empty : Index String String).get namespaceName := List.not_mem_nil
  have hinfos : (Index.empty : Index String BlockInfo).get namespaceName = [] := rfl
  rw [files_ofCalls, infos_ofCalls, Index.mem_get_insertAll, Index.get_addAll, hinfos,
    List.nil_append, or_iff_right hfiles, flatMap_fileEntries, List.mem_map]
  constructor
  · rintro ⟨e, he, heq⟩
    obtain ⟨rfl, rfl⟩ := Prod.mk.inj heq
    exact ⟨e.2, List.mem_map.mpr ⟨e, List.mem_filter.mpr ⟨he, by simp⟩, rfl⟩, rfl⟩
  · rintro ⟨i, hi, rfl⟩
    obtain ⟨e, he, rfl⟩ := List.mem_map.mp hi
    obtain ⟨he, hkey⟩ := List.mem_filter.mp he
    have hkey := Std.LawfulEqCmp.compare_eq_iff_eq.mp (of_decide_eq_true hkey)
    exact ⟨e, he, Prod.ext hkey.symm rfl⟩

/-- The files of each namespace are a set. -/
theorem isSets_files_ofCalls (calls : List (String × Block)) : (ofCalls calls).files.IsSets :=
  files_ofCalls calls ▸ Index.isSets_empty.insertAll _

/-- **The namespaces with files are those with blocks.** -/
theorem namespaces_ofCalls (calls : List (String × Block)) :
    (ofCalls calls).namespaces = (ofCalls calls).infos.keys := by
  refine Ascending.eq_of_pairwise (Index.pairwise_keys _) (Index.pairwise_keys _) fun n => ?_
  show n ∈ (ofCalls calls).files.keys ↔ n ∈ (ofCalls calls).infos.keys
  rw [Index.mem_keys_iff, Index.mem_keys_iff, files_ofCalls, infos_ofCalls,
    Index.hasKey_insertAll, Index.hasKey_addAll, flatMap_fileEntries]
  refine or_congr Iff.rfl ?_
  simp only [List.mem_map, exists_exists_and_eq_and]

/-! ## The records of a key -/

/-- What a call files under a key are the entries of the key. -/
theorem filed_eq_entries (key : ElementKey) (call : String × Block) :
    filed key call =
      ((elementEntries call).filter fun e => compare key e.1 = .eq).map Prod.snd := by
  unfold filed elementEntries
  cases call.2.schema.ownNamespace? with
  | none => rfl
  | some namespaceName =>
    simp only [List.filter_map, List.map_map, Std.LawfulEqCmp.compare_eq_iff_eq]
    refine List.map_congr_left fun o ho => ?_
    have hkey : key = ⟨namespaceName, o.definition.elementName⟩ := by
      simpa using (List.mem_filter.mp ho).2
    exact congrArg (fun k => (⟨k, o, call.1⟩ : ElementRecord)) hkey

/-- **The records of a key are those that the calls filed under it**, in their order. -/
theorem records_ofCalls (calls : List (String × Block)) (key : ElementKey) :
    (ofCalls calls).records key = calls.flatMap (filed key) := by
  have hempty : (Index.empty : Index ElementKey ElementRecord).get key = [] := rfl
  rw [records, elements_ofCalls, Index.get_addAll, hempty, List.nil_append, List.filter_flatMap,
    List.map_flatMap]
  exact List.flatMap_congr fun call _ => (filed_eq_entries key call).symm

/-- A record comes from a call with its file and its object. -/
theorem exists_call_of_mem_records {calls : List (String × Block)} {key : ElementKey}
    {a : ElementRecord} (h : a ∈ (ofCalls calls).records key) :
    ∃ call ∈ calls, a.sourceFile = call.1 ∧ a.object ∈ call.2.objects := by
  rw [records_ofCalls] at h
  obtain ⟨call, hcall, ha⟩ := List.mem_flatMap.mp h
  refine ⟨call, hcall, ?_⟩
  unfold filed at ha
  split at ha
  · exact absurd ha List.not_mem_nil
  · obtain ⟨o, ho, rfl⟩ := List.mem_map.mp ha
    exact ⟨rfl, (List.mem_filter.mp ho).1⟩

/-! ## Calls in another order -/

/-- **Two registries file the same**, up to the order of what is filed under one key. -/
structure FilesAlike (r s : Registry) : Prop where
  /-- They have the same elements, with the same definitions. -/
  elements : r.elements.Alike s.elements
  /-- They have the same namespaces, with the same files. -/
  files : r.files = s.files
  /-- They have the same namespaces, with the same blocks. -/
  infos : r.infos.Alike s.infos
  /-- They have the same annotated places, with the same annotations. -/
  annotations : r.annotations.Alike s.annotations

/-- **Calls in another order file the same.** -/
theorem filesAlike_ofCalls {calls calls' : List (String × Block)} (h : calls.Perm calls') :
    FilesAlike (ofCalls calls) (ofCalls calls') where
  elements := by
    rw [elements_ofCalls, elements_ofCalls]
    exact Index.alike_addAll (h.flatMap_right _)
  files := by
    rw [files_ofCalls, files_ofCalls]
    exact Index.insertAll_eq_of_mem_iff Index.isSets_empty fun _ => (h.flatMap_right _).mem_iff
  infos := by
    rw [infos_ofCalls, infos_ofCalls]
    exact Index.alike_addAll (h.flatMap_right _)
  annotations := by
    rw [annotations_ofCalls, annotations_ofCalls]
    exact Index.alike_addAll (h.flatMap_right _)

end Registry

end CsdlAudit
