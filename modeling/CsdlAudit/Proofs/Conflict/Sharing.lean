import CsdlAudit.Proofs.Conflict.Passes
import CsdlAudit.Proofs.Registry.Contents

/-!
# Shared definitions and equal copies

Two files may hand over one definition object, or each an object of its own that says the same. A
pass that counts objects can tell: an element that several files define by one object is no
duplicate, and becomes one when the files get copies. The comparison by structure cannot, as it asks
what the definitions say; and the passes over namespaces and annotations do not look at objects
(`SharingKept`).

Whether a block carries the schema of its namespace is read off the block and not off its
definitions, and yet it is the same: a block that defines a type, or a container with what it
offers, is complete (`SchemaBlock.isComplete_of_mem`). So several files that define one such element
all carry the schema of the namespace (`NamespacesReported`).
-/

namespace CsdlAudit

/-! ## Copies for shared objects -/

/-- **Calls in which shared objects are replaced by equal copies.** Each object of the second calls
stands for one of the first, which says the same; several of them may stand for one. -/
structure Copies (original : DefinitionObject → DefinitionObject)
    (calls calls' : List (String × Block)) : Prop where
  /-- A copy says what its original says. -/
  definition : ∀ o, (original o).definition = o.definition
  /-- Call by call, the files and the blocks are the same, and the originals stand where their
  copies do. -/
  blocks : List.Forall₂ (fun call call' : String × Block => call'.1 = call.1 ∧
    call'.2.schema = call.2.schema ∧ call.2.objects = call'.2.objects.map original) calls calls'

namespace ElementRecord

variable {original : DefinitionObject → DefinitionObject}

/-- The record with the original of its object. -/
def withOriginal (original : DefinitionObject → DefinitionObject) (a : ElementRecord) :
    ElementRecord :=
  { a with object := original a.object }

@[simp] theorem sourceFile_withOriginal (a : ElementRecord) :
    (a.withOriginal original).sourceFile = a.sourceFile := rfl

@[simp] theorem object_withOriginal (a : ElementRecord) :
    (a.withOriginal original).object = original a.object := rfl

end ElementRecord

namespace Copies

variable {original : DefinitionObject → DefinitionObject} {calls calls' : List (String × Block)}

/-- Entries that are the same for a block and its copy are the same for all calls. -/
theorem flatMap_eq {α : Type} (h : Copies original calls calls')
    {entries entries' : String × Block → List α}
    (hentries : ∀ {call call' : String × Block}, call'.1 = call.1 →
      call'.2.schema = call.2.schema → call.2.objects = call'.2.objects.map original →
      entries call = entries' call') :
    calls.flatMap entries = calls'.flatMap entries' := by
  have hblocks := h.blocks
  induction hblocks with
  | nil => rfl
  | @cons call call' rest rest' hcall hrest ih =>
    obtain ⟨hfile, hschema, hobjects⟩ := hcall
    rw [List.flatMap_cons, List.flatMap_cons, hentries hfile hschema hobjects,
      ih ⟨h.definition, hrest⟩]

/-- **The elements of the first calls are those of the second**, with the originals in place of the
copies. -/
theorem elements_eq (h : Copies original calls calls') :
    (Registry.ofCalls calls).elements.toList =
      Index.mapValues (ElementRecord.withOriginal original)
        (Registry.ofCalls calls').elements.toList := by
  have hentries : calls.flatMap Registry.elementEntries =
      (calls'.flatMap Registry.elementEntries).map fun e => (e.1, e.2.withOriginal original) := by
    rw [List.map_flatMap]
    refine h.flatMap_eq fun {call call'} hfile hschema hobjects => ?_
    unfold Registry.elementEntries
    rw [hschema, hobjects, ← hfile]
    cases call.2.schema.ownNamespace? with
    | none => rfl
    | some namespaceName =>
      simp only [List.map_map]
      refine List.map_congr_left fun o _ => ?_
      simp only [Function.comp_apply, h.definition, ElementRecord.withOriginal]
  rw [Registry.elements_ofCalls, Registry.elements_ofCalls, hentries]
  exact Index.toList_addAll_map rfl _

theorem files_eq (h : Copies original calls calls') :
    (Registry.ofCalls calls).files = (Registry.ofCalls calls').files := by
  rw [Registry.files_ofCalls, Registry.files_ofCalls]
  refine congrArg _ (h.flatMap_eq fun hfile hschema _ => ?_)
  rw [Registry.fileEntries, Registry.fileEntries, hfile, hschema]

theorem infos_eq (h : Copies original calls calls') :
    (Registry.ofCalls calls).infos = (Registry.ofCalls calls').infos := by
  rw [Registry.infos_ofCalls, Registry.infos_ofCalls]
  refine congrArg _ (h.flatMap_eq fun hfile hschema _ => ?_)
  rw [Registry.infoEntries, Registry.infoEntries, hfile, hschema]

theorem annotations_eq (h : Copies original calls calls') :
    (Registry.ofCalls calls).annotations = (Registry.ofCalls calls').annotations := by
  rw [Registry.annotations_ofCalls, Registry.annotations_ofCalls]
  refine congrArg _ (h.flatMap_eq fun hfile hschema _ => ?_)
  rw [Registry.annotationEntries, Registry.annotationEntries, hfile, hschema]

end Copies

/-! ## What the passes see of copies -/

section Records

variable {original : DefinitionObject → DefinitionObject} {records : List ElementRecord}

/-- Records clash by structure when two come from different files, and two differ in kind or in
fingerprint. Which of them are one object does not matter. -/
theorem clash_and_incompatible_structural_iff :
    (clash records && incompatible .structural records) = true ↔
      (∃ a ∈ records, ∃ b ∈ records, a.sourceFile ≠ b.sourceFile) ∧
        ((∃ a ∈ records, ∃ b ∈ records, a.kind ≠ b.kind) ∨ ∃ a ∈ records, ∃ b ∈ records,
          a.object.definition.fingerprint ≠ b.object.definition.fingerprint) := by
  rw [Bool.and_eq_true, clash_iff, incompatible_iff,
    or_iff_right (a := DefinitionPolicy.structural = .conservative) DefinitionPolicy.noConfusion]
  constructor
  · rintro ⟨⟨a, ha, b, hb, hfile, -⟩, hdiffer⟩
    exact ⟨⟨a, ha, b, hb, hfile⟩, hdiffer⟩
  · rintro ⟨hfiles, hdiffer⟩
    have hobjects : ∃ a ∈ records, ∃ b ∈ records, a.object ≠ b.object := by
      rcases hdiffer with ⟨a, ha, b, hb, hne⟩ | ⟨a, ha, b, hb, hne⟩
      · exact ⟨a, ha, b, hb, fun e => hne (congrArg (·.definition.kind) e)⟩
      · exact ⟨a, ha, b, hb, fun e => hne (congrArg (·.definition.fingerprint) e)⟩
    exact ⟨exists_differ_in_both hfiles hobjects, hdiffer⟩

theorem filesOf_map_withOriginal :
    filesOf (records.map (ElementRecord.withOriginal original)) = filesOf records := by
  rw [filesOf, List.map_map]
  rfl

/-- Objects that differ have copies that differ. -/
theorem clash_of_map_withOriginal
    (h : clash (records.map (ElementRecord.withOriginal original)) = true) :
    clash records = true := by
  rw [clash_iff] at h ⊢
  obtain ⟨_, ha', _, hb', hfile, hobject⟩ := h
  obtain ⟨a, ha, rfl⟩ := List.mem_map.mp ha'
  obtain ⟨b, hb, rfl⟩ := List.mem_map.mp hb'
  exact ⟨a, ha, b, hb, hfile, fun e => hobject (congrArg original e)⟩

/-- **The comparison by structure sees no difference** between an original and its copies. -/
theorem clash_and_incompatible_map_withOriginal
    (h : ∀ o, (original o).definition = o.definition) :
    (clash (records.map (ElementRecord.withOriginal original)) &&
        incompatible .structural (records.map (ElementRecord.withOriginal original))) =
      (clash records && incompatible .structural records) := by
  rw [Bool.eq_iff_iff, clash_and_incompatible_structural_iff,
    clash_and_incompatible_structural_iff]
  simp only [List.mem_map, exists_exists_and_eq_and, ElementRecord.kind,
    ElementRecord.object_withOriginal, ElementRecord.sourceFile_withOriginal, h]

end Records

/-- **What becomes of the conflicts of a registry when shared objects are replaced by copies.** -/
structure SharingKept (r s : Registry) : Prop where
  /-- The same elements are incompatible by structure, with the same files. -/
  structural : (incompatibleDefinitions .structural s).map Conflict.withoutDetails =
    (incompatibleDefinitions .structural r).map Conflict.withoutDetails
  /-- The same namespaces are reported. -/
  namespaces : duplicateNamespaces s = duplicateNamespaces r
  /-- The same annotations are reported. -/
  annotations : annotationConflicts s = annotationConflicts r
  /-- No duplicate element is lost. -/
  duplicates : (duplicateElements r).Sublist (duplicateElements s)
  /-- One that was there before is reported as before. -/
  common : ∀ c ∈ duplicateElements r, ∀ d ∈ duplicateElements s,
    c.namespaceName = d.namespaceName → c.elementName = d.elementName → c = d

/-- What is made of each member stays when more members are made something of. -/
theorem filterMap_sublist_filterMap {α β : Type} {f g : α → Option β} {l : List α}
    (h : ∀ a ∈ l, ∀ b, f a = some b → g a = some b) :
    (l.filterMap f).Sublist (l.filterMap g) := by
  induction l with
  | nil => exact .slnil
  | cons a rest ih =>
    have ih := ih fun b hb => h b (List.mem_cons_of_mem a hb)
    cases hf : f a with
    | none =>
      rw [List.filterMap_cons_none hf]
      exact ih.trans ((List.sublist_cons_self a rest).filterMap g)
    | some b =>
      rw [List.filterMap_cons_some hf, List.filterMap_cons_some (h a List.mem_cons_self b hf)]
      exact ih.cons_cons b

namespace Copies

variable {original : DefinitionObject → DefinitionObject} {calls calls' : List (String × Block)}

theorem duplicateElements_sublist (h : Copies original calls calls') :
    (duplicateElements (Registry.ofCalls calls)).Sublist
      (duplicateElements (Registry.ofCalls calls')) := by
  rw [duplicateElements, duplicateElements, h.elements_eq, Index.mapValues, List.filterMap_map]
  refine filterMap_sublist_filterMap fun e _ c hc => ?_
  simp only [Function.comp_apply, Option.ite_none_right_eq_some] at hc ⊢
  rw [filesOf_map_withOriginal] at hc
  exact hc.imp_left clash_of_map_withOriginal

theorem incompatibleDefinitions_eq (h : Copies original calls calls') :
    (incompatibleDefinitions .structural (Registry.ofCalls calls')).map Conflict.withoutDetails =
      (incompatibleDefinitions .structural (Registry.ofCalls calls)).map
        Conflict.withoutDetails := by
  rw [incompatibleDefinitions, incompatibleDefinitions, h.elements_eq, Index.mapValues,
    List.filterMap_map, List.map_filterMap, List.map_filterMap]
  refine List.filterMap_congr fun e _ => ?_
  simp only [Function.comp_apply, clash_and_incompatible_map_withOriginal h.definition,
    filesOf_map_withOriginal]
  split
  · rfl
  · rfl

/-- The conflicts of one element name the same files. -/
theorem duplicateElement_eq (h : Copies original calls calls') {c d : Conflict}
    (hc : c ∈ duplicateElements (Registry.ofCalls calls))
    (hd : d ∈ duplicateElements (Registry.ofCalls calls'))
    (hnamespace : c.namespaceName = d.namespaceName) (hname : c.elementName = d.elementName) :
    c = d := by
  have hc' := h.duplicateElements_sublist.subset hc
  obtain ⟨key, -, rfl⟩ := mem_duplicateElements_iff.mp hc'
  obtain ⟨key', -, rfl⟩ := mem_duplicateElements_iff.mp hd
  cases key
  cases key'
  cases hnamespace
  cases hname
  rfl

theorem sharingKept (h : Copies original calls calls') :
    SharingKept (Registry.ofCalls calls) (Registry.ofCalls calls') where
  structural := h.incompatibleDefinitions_eq
  namespaces := by
    rw [duplicateNamespaces, duplicateNamespaces, Registry.namespaces, Registry.namespaces,
      h.files_eq, h.infos_eq]
  annotations := by rw [annotationConflicts, annotationConflicts, h.annotations_eq]
  duplicates := h.duplicateElements_sublist
  common := fun _ hc _ hd => h.duplicateElement_eq hc hd

end Copies

/-! ## Complete blocks -/

/-- Whether an element of the kind makes its block complete: a type, or a container with what it
offers. Operations and terms do not. -/
def ElementKind.completes : ElementKind → Bool
  | .action | .function | .term => false
  | _ => true

/-- **A block that defines such an element is complete.** -/
theorem SchemaBlock.isComplete_of_mem {b : SchemaBlock} {d : Definition} (hd : d ∈ b.definitions)
    (hkind : d.kind.completes = true) : b.isComplete = true := by
  by_contra hcomplete
  simp only [isComplete, Bool.or_eq_true, Bool.not_eq_true', List.isEmpty_eq_false_iff, not_or,
    not_not, Option.not_isSome_iff_eq_none] at hcomplete
  obtain ⟨⟨⟨⟨hcontainer, hentity⟩, hcomplex⟩, henum⟩, hdefinition⟩ := hcomplete
  -- only operations and terms are left
  simp only [definitions, ownDefinitions, hcontainer, hentity, hcomplex, henum, hdefinition,
    List.map_nil, List.nil_append, Option.map_none, Option.getD_none, List.append_nil,
    List.mem_append, List.mem_map] at hd
  rcases hd with (⟨o, -, rfl⟩ | ⟨o, -, rfl⟩) | ⟨t, -, rfl⟩
  · cases hkind
  · cases hkind
  · cases hkind

/-- **The elements that make a block complete have their namespace reported.** -/
def NamespacesReported (r : Registry) : Prop :=
  ∀ key, (∃ a ∈ r.records key, ∃ b ∈ r.records key,
      a.kind.completes = true ∧ b.kind.completes = true ∧ a.sourceFile ≠ b.sourceFile) →
    ∃ d ∈ duplicateNamespaces r, d.namespaceName = key.namespaceName ∧
      ∀ a ∈ r.records key, a.kind.completes = true → a.sourceFile ∈ d.files

/-- A record of such an element comes from a file that carries the schema of its namespace. -/
theorem mem_completeFiles_of_record {calls : List (String × Block)} {key : ElementKey}
    {a : ElementRecord} (ha : a ∈ (Registry.ofCalls calls).records key)
    (hkind : a.kind.completes = true) :
    a.sourceFile ∈ completeFiles ((Registry.ofCalls calls).infos.get key.namespaceName) := by
  obtain ⟨call, hcall, hfile, ho⟩ := Registry.exists_callsOf_of_mem_records ha
  have hcomplete : call.2.schema.isComplete = true :=
    SchemaBlock.isComplete_of_mem (Registry.definition_mem_of_objects ho) hkind
  rw [completeFiles, Ascending.mem_ofList, Registry.infos_get_ofCalls]
  exact List.mem_map.mpr
    ⟨_, List.mem_filter.mpr ⟨List.mem_map_of_mem hcall, hcomplete⟩, hfile⟩

theorem namespacesReported_ofCalls (calls : List (String × Block)) :
    NamespacesReported (Registry.ofCalls calls) := by
  rintro key ⟨a, ha, b, hb, hka, hkb, hne⟩
  have hseveral : 1 <
      (completeFiles ((Registry.ofCalls calls).infos.get key.namespaceName)).length :=
    Ascending.one_lt_length_ofList.mpr
      ⟨_, Ascending.mem_ofList.mp (mem_completeFiles_of_record ha hka),
        _, Ascending.mem_ofList.mp (mem_completeFiles_of_record hb hkb), hne⟩
  obtain ⟨call, hcall, -⟩ := Registry.exists_callsOf_of_mem_records ha
  have hknown : key.namespaceName ∈ (Registry.ofCalls calls).namespaces :=
    Registry.mem_namespaces_ofCalls.mpr ⟨call, hcall⟩
  exact ⟨_, mem_duplicateNamespaces_iff.mpr ⟨_, hknown, hseveral, rfl⟩, rfl,
    fun _ => mem_completeFiles_of_record⟩

/-! ## Both together -/

/-- **Copies in the place of shared objects make nothing but further duplicate elements**, whatever
the calls and the sharing in them; and whatever is shared, types and containers that several files
define come with their namespace. -/
theorem sharing_ofCalls {original : DefinitionObject → DefinitionObject}
    {calls calls' : List (String × Block)} (h : Copies original calls calls') :
    SharingKept (Registry.ofCalls calls) (Registry.ofCalls calls') ∧
      NamespacesReported (Registry.ofCalls calls) ∧ NamespacesReported (Registry.ofCalls calls') :=
  ⟨h.sharingKept, namespacesReported_ofCalls calls, namespacesReported_ofCalls calls'⟩

/-- Two files that hand over the enumeration objects `first` and `second`, which say the same. -/
def handed (first second : Nat) : List (String × Block) :=
  [("a.xml", Block.fresh first (enumeration false)),
    ("b.xml", Block.fresh second (enumeration false))]

/-- **A copy makes a duplicate of a shared enumeration**; that both files carry the schema of the
namespace was reported before. -/
theorem sharing_handed :
    Copies (fun o => ⟨.own 0, o.definition⟩) (handed 0 0) (handed 0 1) ∧
      (SharingKept (Registry.ofCalls (handed 0 0)) (Registry.ofCalls (handed 0 1)) ∧
        NamespacesReported (Registry.ofCalls (handed 0 0)) ∧
        NamespacesReported (Registry.ofCalls (handed 0 1))) ∧
      duplicateElements (Registry.ofCalls (handed 0 0)) = [] ∧
      (duplicateElements (Registry.ofCalls (handed 0 1))).map (·.files) =
        [["a.xml", "b.xml"]] ∧
      (duplicateNamespaces (Registry.ofCalls (handed 0 0))).map (·.files) =
        [["a.xml", "b.xml"]] := by
  have hcopies : Copies (fun o => ⟨.own 0, o.definition⟩) (handed 0 0) (handed 0 1) :=
    ⟨fun _ => rfl, .cons ⟨rfl, rfl, rfl⟩ (.cons ⟨rfl, rfl, rfl⟩ .nil)⟩
  exact ⟨hcopies, sharing_ofCalls hcopies, by decide +kernel, by decide +kernel,
    by decide +kernel⟩

end CsdlAudit
