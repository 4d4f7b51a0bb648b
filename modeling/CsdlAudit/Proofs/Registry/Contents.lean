import Mathlib.Data.List.Perm.Basic
import CsdlAudit.Proofs.Registry.Ingest
import CsdlAudit.Schema.Builder

/-!
# What a registry holds

The five parts of a registry are filled by one loop over the definitions of a block, its members and
what it annotates from outside. `Registry.Indexes` says what they hold after a sequence of calls,
with no mention of that loop: each part by itself is read off the calls, and what a block defines is
read off its own lists and those of its container (`SchemaBlock.listings`).

The entries that a call makes are known (`Registry.elements_ofCalls` and its siblings). What is left
is to say of the entries which definitions, members and targets they come from. A definition is
filed together with the annotations inside of it, so the annotations of a block are filed in another
order than by where they stand, and `Registry.perm_annotationsOf` accounts for that.

Whatever a registry holds has the file of a call. What is filed under a namespace comes from a call
with a block of it (`Registry.exists_callsOf_of_mem_records` and its siblings), whose files are
those that `Registry.filesOf?` lists (`Registry.exists_filesOf?_ofCalls`).
-/

namespace CsdlAudit

/-! ## What a block lists -/

/-- **A definition as a block lists it**, with what it is filed by. -/
structure Listing where
  /-- The name, or the signature of an operation. -/
  name : String
  /-- The kind. -/
  kind : ElementKind
  /-- The annotations of the element itself. -/
  annotations : List Annotation
  /-- The definition. -/
  definition : Definition

/-- What a container lists: itself, then what it offers. -/
def EntityContainer.listings (c : EntityContainer) : List Listing :=
  ⟨c.name, .entityContainer, c.annotations, .entityContainer c⟩ ::
    (c.entitySets.map (fun s => ⟨s.name, .entitySet, s.annotations, .entitySet s⟩) ++
      c.singletons.map (fun s => ⟨s.name, .singleton, s.annotations, .singleton s⟩) ++
      c.actionImports.map (fun i => ⟨i.name, .actionImport, i.annotations, .actionImport i⟩) ++
      c.functionImports.map (fun i =>
        ⟨i.name, .functionImport, i.annotations, .functionImport i⟩))

/-- **What a block lists**: its types, operations and terms, then what its container lists. -/
def SchemaBlock.listings (b : SchemaBlock) : List Listing :=
  b.entityTypes.map (fun t => ⟨t.name, .entityType, t.annotations, .entityType t⟩) ++
    b.complexTypes.map (fun t => ⟨t.name, .complexType, t.annotations, .complexType t⟩) ++
    b.enumTypes.map (fun t => ⟨t.name, .enumType, t.annotations, .enumType t⟩) ++
    b.typeDefinitions.map (fun t => ⟨t.name, .typeDefinition, t.annotations, .typeDefinition t⟩) ++
    b.actions.map (fun o => ⟨o.signature, .action, o.annotations, .action o⟩) ++
    b.functions.map (fun o => ⟨o.signature, .function, o.annotations, .function o⟩) ++
    b.terms.map (fun t => ⟨t.name, .term, t.annotations, .term t⟩) ++
    b.entityContainer.toList.flatMap EntityContainer.listings

/-- A definition with the name, the kind and the annotations that it is filed by. -/
def Definition.listing (d : Definition) : Listing := ⟨d.elementName, d.kind, d.annotations, d⟩

/-- **The definitions of a block are what it lists.** -/
theorem SchemaBlock.map_listing_definitions (b : SchemaBlock) :
    b.definitions.map Definition.listing = b.listings := by
  have hcontainer : ∀ c : EntityContainer,
      c.definitions.map Definition.listing = c.listings := by
    intro c
    simp only [EntityContainer.definitions, EntityContainer.listings, List.map_cons,
      List.map_append, List.map_map]
    rfl
  have hoffered : ((b.entityContainer.map EntityContainer.definitions).getD []).map
      Definition.listing = b.entityContainer.toList.flatMap EntityContainer.listings := by
    cases b.entityContainer with
    | none => rfl
    | some c => simp [hcontainer]
  rw [definitions, List.map_append, hoffered]
  simp only [ownDefinitions, listings, List.map_append, List.map_map]
  rfl

/-! ## What calls answer -/

namespace IngestOutcome

/-- How many definitions were filed. -/
def elements : IngestOutcome → Nat
  | .filed elements _ => elements
  | .skipped => 0

/-- How many annotations were filed. -/
def annotations : IngestOutcome → Nat
  | .filed _ annotations => annotations
  | .skipped => 0

end IngestOutcome

namespace Registry

/-- What a sequence of calls answers, call by call. -/
def outcomes (r : Registry) : List (String × Block) → List IngestOutcome
  | [] => []
  | call :: calls =>
    (r.ingest call.1 call.2).2 :: outcomes (r.ingest call.1 call.2).1 calls

/-- The calls with a block of a namespace. -/
def callsOf (namespaceName : String) (calls : List (String × Block)) : List (String × Block) :=
  calls.filter fun call => call.2.schema.ownNamespace? = some namespaceName

/-! ## The annotations of a call -/

/-- An annotation with its value and its file, under its place and its term with the qualifier. One
without a value says its term. -/
def annotationEntry (file namespaceName place : String) (a : Annotation) :
    AnnotationKey × AnnotationRecord :=
  (⟨namespaceName, place, a.qualifier.elim a.term fun q => a.term ++ "#" ++ q⟩,
    ⟨a.value.getD a.term, file⟩)

/-- The annotations of the definitions themselves, at their names. -/
def inlineAnnotations (namespaceName file : String) (b : SchemaBlock) :
    List (AnnotationKey × AnnotationRecord) :=
  b.listings.flatMap fun l => l.annotations.map (annotationEntry file namespaceName l.name)

/-- The properties and navigation properties of a structured type, with their annotations. -/
def membersOf (t : StructuredType) : List (String × List Annotation) :=
  t.properties.map (fun p => (p.name, p.annotations)) ++
    t.navigationProperties.map fun n => (n.name, n.annotations)

/-- The annotations of the members of structured types, at their paths. -/
def memberAnnotations (namespaceName file : String) (b : SchemaBlock) :
    List (AnnotationKey × AnnotationRecord) :=
  (b.entityTypes ++ b.complexTypes).flatMap fun t =>
    (membersOf t).flatMap fun m =>
      m.2.map (annotationEntry file namespaceName (t.name ++ "/" ++ m.1))

/-- The annotations from outside, at the places to which their targets lead. -/
def externalAnnotations (namespaceName file : String) (b : SchemaBlock) :
    List (AnnotationKey × AnnotationRecord) :=
  b.externalAnnotations.flatMap fun t =>
    let place := splitTarget t.target namespaceName b.aliasName
    t.annotations.map (annotationEntry file place.1 place.2)

/-- **All annotations of a call**: inline, of members, and from outside. -/
def annotationsOf (call : String × Block) : List (AnnotationKey × AnnotationRecord) :=
  call.2.schema.ownNamespace?.toList.flatMap fun namespaceName =>
    inlineAnnotations namespaceName call.1 call.2.schema ++
      memberAnnotations namespaceName call.1 call.2.schema ++
      externalAnnotations namespaceName call.1 call.2.schema

theorem annotationEntry_eq (file namespaceName place : String) (a : Annotation) :
    annotationEntry file namespaceName place a =
      (⟨namespaceName, place, a.termKey⟩, ⟨a.valueText, file⟩) := by
  unfold annotationEntry Annotation.termKey
  cases a.qualifier <;> rfl

/-- Members without annotations contribute none. -/
theorem flatMap_structuredMembers {α : Type} (t : StructuredType)
    (f : String → Annotation → α) :
    ((Definition.structuredMembers t).flatMap fun m => m.2.map (f m.1)) =
      (membersOf t).flatMap fun m => m.2.map (f m.1) := by
  unfold Definition.structuredMembers membersOf
  generalize t.properties.map _ ++ _ = members
  induction members with
  | nil => rfl
  | cons m members ih =>
    rw [List.flatMap_cons, ← ih, List.filter_cons]
    split
    · rw [List.flatMap_cons]
    · next h =>
      have hnone : m.2 = [] := by simpa using h
      rw [hnone, List.map_nil, List.nil_append]

theorem flatMap_annotations (namespaceName file : String) (b : SchemaBlock) :
    (b.definitions.flatMap fun d =>
      d.annotations.map (annotationEntry file namespaceName d.elementName)) =
      inlineAnnotations namespaceName file b := by
  rw [inlineAnnotations, ← b.map_listing_definitions, List.flatMap_map]
  rfl

/-- Only structured types have annotated members. -/
theorem flatMap_memberAnnotations (namespaceName file : String) (b : SchemaBlock) :
    (b.definitions.flatMap fun d => d.memberAnnotations.flatMap fun m =>
      m.2.map (annotationEntry file namespaceName (d.elementName ++ "/" ++ m.1))) =
      memberAnnotations namespaceName file b := by
  have hmembers := fun t : StructuredType =>
    flatMap_structuredMembers t fun member =>
      annotationEntry file namespaceName (t.name ++ "/" ++ member)
  have hempty : ∀ {α : Type} (xs : List α),
      (xs.flatMap fun _ => ([] : List (AnnotationKey × AnnotationRecord))) = [] :=
    fun xs => List.flatMap_eq_nil_iff.mpr fun _ _ => rfl
  cases hcontainer : b.entityContainer <;>
    simp only [SchemaBlock.definitions, SchemaBlock.ownDefinitions, hcontainer, Option.map,
      Option.getD, EntityContainer.definitions, List.flatMap_append, List.flatMap_cons,
      List.flatMap_map, Definition.memberAnnotations, Definition.elementName, List.flatMap_nil,
      hempty, hmembers, List.append_nil, memberAnnotations]

/-- The annotations of a definition and of its members. -/
theorem map_placedAnnotations (namespaceName file : String) (d : Definition) :
    ((d.placedAnnotations namespaceName).map fun p => annotationEntry file p.1 p.2.1 p.2.2) =
      d.annotations.map (annotationEntry file namespaceName d.elementName) ++
        d.memberAnnotations.flatMap fun m =>
          m.2.map (annotationEntry file namespaceName (d.elementName ++ "/" ++ m.1)) := by
  rw [Definition.placedAnnotations, List.map_append, List.map_map, List.map_flatMap]
  exact congrArg _ (List.flatMap_congr fun m _ => List.map_map)

theorem map_outsideAnnotations (namespaceName file : String) (b : SchemaBlock) :
    ((b.outsideAnnotations namespaceName).map fun p => annotationEntry file p.1 p.2.1 p.2.2) =
      externalAnnotations namespaceName file b := by
  rw [SchemaBlock.outsideAnnotations, List.map_flatMap]
  exact List.flatMap_congr fun t _ => List.map_map

/-- **A call files its annotations**, in an order of its own. -/
theorem perm_annotationsOf (call : String × Block) :
    (annotationEntries call).Perm (annotationsOf call) := by
  unfold annotationEntries annotationsOf
  cases call.2.schema.ownNamespace? with
  | none => exact List.Perm.refl _
  | some namespaceName =>
    simp only [← annotationEntry_eq]
    rw [SchemaBlock.placedAnnotations, List.map_append, List.map_flatMap,
      map_outsideAnnotations, List.flatMap_congr fun d _ => map_placedAnnotations _ _ d,
      Option.toList_some, List.flatMap_singleton, ← flatMap_memberAnnotations,
      ← flatMap_annotations]
    exact (List.flatMap_append_perm _ _ _).symm.append_right _

/-! ## The counts -/

/-- **What a call answers are the numbers of its entries.** -/
theorem outcome_ingest (r : Registry) (call : String × Block) :
    (r.ingest call.1 call.2).2.elements = (elementEntries call).length ∧
      (r.ingest call.1 call.2).2.annotations = (annotationEntries call).length := by
  unfold ingest elementEntries annotationEntries
  cases call.2.schema.ownNamespace? with
  | none => exact ⟨rfl, rfl⟩
  | some namespaceName => exact ⟨(List.length_map _).symm, (List.length_map _).symm⟩

/-- The answers to a sequence of calls add up to the number of all entries. -/
theorem total_outcomes (r : Registry) (calls : List (String × Block)) :
    total ((outcomes r calls).map (·.elements)) = (calls.flatMap elementEntries).length ∧
      total ((outcomes r calls).map (·.annotations)) =
        (calls.flatMap annotationEntries).length := by
  induction calls generalizing r with
  | nil => exact ⟨rfl, rfl⟩
  | cons call calls ih =>
    obtain ⟨helements, hannotations⟩ := outcome_ingest r call
    obtain ⟨ihelements, ihannotations⟩ := ih (r.ingest call.1 call.2).1
    simp only [outcomes, List.map_cons, total_cons, List.flatMap_cons, List.length_append,
      helements, hannotations, ihelements, ihannotations, and_self]

/-! ## The blocks -/

/-- **A block without a namespace is skipped**, and no other block is. -/
theorem outcome_eq_skipped_iff (r : Registry) (file : String) (b : Block) :
    (r.ingest file b).2 = .skipped ↔ b.schema.ownNamespace? = none := by
  unfold ingest
  cases b.schema.ownNamespace? <;> simp

theorem ingest_of_skipped {r : Registry} {file : String} {b : Block}
    (h : (r.ingest file b).2 = .skipped) : (r.ingest file b).1 = r := by
  rw [outcome_eq_skipped_iff] at h
  rw [ingest, h]

/-- Calls put their blocks behind the earlier ones, unless they are skipped. -/
theorem ingested_foldl (calls : List (String × Block)) (r : Registry) :
    (calls.foldl (fun r c => (r.ingest c.1 c.2).1) r).ingested =
      r.ingested ++ calls.filter fun call => call.2.schema.ownNamespace?.isSome := by
  induction calls generalizing r with
  | nil => exact (List.append_nil _).symm
  | cons call calls ih =>
    rw [List.foldl_cons, ih, List.filter_cons, ingest]
    cases call.2.schema.ownNamespace? with
    | none => rfl
    | some namespaceName => exact List.append_assoc _ _ _

theorem ingested_ofCalls (calls : List (String × Block)) :
    (ofCalls calls).ingested =
      calls.filter fun call => call.2.schema.ownNamespace?.isSome :=
  ingested_foldl calls empty

/-! ## The registry after a sequence of calls -/

/-- **The registry holds what the calls gave it**, and nothing else. -/
structure Indexes (calls : List (String × Block)) (r : Registry) : Prop where
  /-- The blocks are those with a namespace, in order. -/
  schemas : r.schemas = (calls.filter fun call => call.2.schema.ownNamespace?.isSome).map
    fun call => (call.1, call.2.schema)
  /-- A block is of the namespace that it names, unless the name is empty. -/
  own : ∀ call ∈ calls, ∀ namespaceName, call.2.schema.ownNamespace? = some namespaceName ↔
    call.2.schema.namespaceName = some namespaceName ∧ namespaceName ≠ ""
  /-- The objects of a block are what it lists, each by its name, of its kind and with its
  annotations, and have the handles of the block. -/
  objects : ∀ call ∈ calls,
    call.2.objects.map (fun o => o.definition.listing) = call.2.schema.listings ∧
      call.2.objects.map (·.handle) = call.2.handles
  /-- The records of a key are the objects of that name in the blocks of its namespace, in order,
  each with its file. -/
  records : ∀ key, r.records key = (callsOf key.namespaceName calls).flatMap fun call =>
    (call.2.objects.filter fun o => o.definition.elementName = key.name).map fun o =>
      ⟨key, o, call.1⟩
  /-- The elements are those that such a block lists. -/
  elements : ∀ key, key ∈ r.elements.keys ↔ ∃ call ∈ callsOf key.namespaceName calls,
    ∃ l ∈ call.2.schema.listings, l.name = key.name
  /-- A namespace has one entry for each of its blocks, in order. -/
  infos : ∀ namespaceName, r.infos.get namespaceName =
    (callsOf namespaceName calls).map fun call =>
      ⟨namespaceName, call.2.schema.aliasName, call.1, call.2.schema.isComplete⟩
  /-- The namespaces are those of the blocks. -/
  namespaces : ∀ namespaceName,
    namespaceName ∈ r.namespaces ↔ ∃ call, call ∈ callsOf namespaceName calls
  /-- The same namespaces have entries, and the same have files. -/
  sameNamespaces : r.infos.keys = r.namespaces ∧ r.namespaceFiles.map Prod.fst = r.namespaces
  /-- The files of a namespace are those of its blocks, in ascending order. -/
  files : ∀ e ∈ r.namespaceFiles,
    e.2.Pairwise (· < ·) ∧ ∀ file, file ∈ e.2 ↔ ∃ call ∈ callsOf e.1 calls, call.1 = file
  /-- Each annotation is filed once. -/
  annotations : r.annotations.entries.Perm (calls.flatMap annotationsOf)
  /-- The annotated places are those of the annotations. -/
  places : ∀ key, key ∈ r.annotations.keys ↔ ∃ e ∈ calls.flatMap annotationsOf, e.1 = key
  /-- There are as many definitions as the calls have answered. -/
  elementCount : r.elementCount = total ((outcomes empty calls).map (·.elements))
  /-- There are as many annotations as the calls have answered. -/
  annotationCount : r.annotations.size = total ((outcomes empty calls).map (·.annotations))

/-- **A registry has grown** by what stands behind its lists. -/
structure Extends (r s : Registry) : Prop where
  /-- The blocks stay. -/
  schemas : r.schemas <+: s.schemas
  /-- The records of each key stay. -/
  records : ∀ key, r.records key <+: s.records key
  /-- The namespaces stay. -/
  namespaces : r.namespaces ⊆ s.namespaces
  /-- The files of each namespace stay. -/
  files : ∀ namespaceName, r.files.get namespaceName ⊆ s.files.get namespaceName
  /-- The entries of each namespace stay. -/
  infos : ∀ namespaceName, r.infos.get namespaceName <+: s.infos.get namespaceName
  /-- The annotations of each place stay. -/
  annotations : ∀ key, r.annotations.get key <+: s.annotations.get key

/-- What calls file under a key, by the calls of its namespace. -/
theorem flatMap_filed (key : ElementKey) (calls : List (String × Block)) :
    calls.flatMap (filed key) = (callsOf key.namespaceName calls).flatMap fun call =>
      (call.2.objects.filter fun o => o.definition.elementName = key.name).map fun o =>
        ⟨key, o, call.1⟩ := by
  have hkey : ∀ namespaceName name : String,
      key = ⟨namespaceName, name⟩ ↔ key.namespaceName = namespaceName ∧ name = key.name := by
    intro namespaceName name
    cases key
    rw [ElementKey.mk.injEq]
    exact and_congr_right fun _ => eq_comm
  unfold callsOf
  induction calls with
  | nil => rfl
  | cons call calls ih =>
    rw [List.flatMap_cons, ih, List.filter_cons, filed]
    cases call.2.schema.ownNamespace? with
    | none => rfl
    | some namespaceName =>
      by_cases h : key.namespaceName = namespaceName
      · subst h
        simp [hkey]
      · simp [hkey, h, Ne.symm h]

/-- What calls file about their blocks, by the calls of a namespace. -/
theorem filter_infoEntries (namespaceName : String) (calls : List (String × Block)) :
    ((calls.flatMap infoEntries).filter fun e => compare namespaceName e.1 = .eq).map Prod.snd =
      (callsOf namespaceName calls).map fun call =>
        ⟨namespaceName, call.2.schema.aliasName, call.1, call.2.schema.isComplete⟩ := by
  unfold callsOf
  induction calls with
  | nil => rfl
  | cons call calls ih =>
    rw [List.flatMap_cons, List.filter_append, List.map_append, ih, List.filter_cons, infoEntries]
    cases call.2.schema.ownNamespace? with
    | none => rfl
    | some own =>
      by_cases h : namespaceName = own
      · subst h
        simp
      · simp [h, Ne.symm h, Std.LawfulEqCmp.compare_eq_iff_eq]

theorem infos_get_ofCalls (calls : List (String × Block)) (namespaceName : String) :
    (ofCalls calls).infos.get namespaceName = (callsOf namespaceName calls).map fun call =>
      ⟨namespaceName, call.2.schema.aliasName, call.1, call.2.schema.isComplete⟩ := by
  rw [infos_ofCalls, Index.get_addAll, filter_infoEntries]
  exact List.nil_append _

/-- Entries under a key that only blocks of one namespace make. -/
theorem exists_entry_iff {κ ν : Type} {entries : String × Block → List (κ × ν)} {k : κ}
    {namespaceName : String} {P : String × Block → Prop}
    (h : ∀ call, (∃ e ∈ entries call, e.1 = k) ↔
      call.2.schema.ownNamespace? = some namespaceName ∧ P call) (calls : List (String × Block)) :
    (∃ e ∈ calls.flatMap entries, e.1 = k) ↔ ∃ call ∈ callsOf namespaceName calls, P call := by
  constructor
  · rintro ⟨e, he, hk⟩
    obtain ⟨call, hcall, he⟩ := List.mem_flatMap.mp he
    obtain ⟨hown, hP⟩ := (h call).mp ⟨e, he, hk⟩
    exact ⟨call, List.mem_filter.mpr ⟨hcall, decide_eq_true hown⟩, hP⟩
  · rintro ⟨call, hcall, hP⟩
    obtain ⟨hcall, hown⟩ := List.mem_filter.mp hcall
    obtain ⟨e, he, hk⟩ := (h call).mpr ⟨of_decide_eq_true hown, hP⟩
    exact ⟨e, List.mem_flatMap.mpr ⟨call, hcall, he⟩, hk⟩

theorem mem_elements_ofCalls {calls : List (String × Block)} {key : ElementKey} :
    key ∈ (ofCalls calls).elements.keys ↔ ∃ call ∈ callsOf key.namespaceName calls,
      ∃ l ∈ call.2.schema.listings, l.name = key.name := by
  rw [elements_ofCalls, Index.mem_keys_addAll_empty]
  refine exists_entry_iff (fun call => ?_) calls
  unfold elementEntries
  rw [← SchemaBlock.map_listing_definitions, ← Block.objects_definitions]
  cases key
  cases call.2.schema.ownNamespace? <;> simp [and_left_comm, Definition.listing]

theorem mem_namespaces_ofCalls {calls : List (String × Block)} {namespaceName : String} :
    namespaceName ∈ (ofCalls calls).namespaces ↔
      ∃ call, call ∈ callsOf namespaceName calls := by
  have hentry : ∀ call : String × Block, (∃ e ∈ infoEntries call, e.1 = namespaceName) ↔
      call.2.schema.ownNamespace? = some namespaceName ∧ True := by
    intro call
    unfold infoEntries
    cases call.2.schema.ownNamespace? <;> simp
  rw [namespaces_ofCalls, infos_ofCalls, Index.mem_keys_addAll_empty, exists_entry_iff hentry]
  exact exists_congr fun call => Iff.of_eq (and_true _)

/-- **The files of a namespace are those of the calls with a block of it.** -/
theorem mem_files_ofCalls {calls : List (String × Block)} {namespaceName file : String} :
    file ∈ (ofCalls calls).files.get namespaceName ↔
      ∃ call ∈ callsOf namespaceName calls, call.1 = file := by
  rw [mem_files_ofCalls_iff, infos_get_ofCalls]
  simp only [List.mem_map, exists_exists_and_eq_and]

/-! ## Where values come from -/

section Origin

variable {calls : List (String × Block)}

theorem definition_mem_of_objects {b : Block} {o : DefinitionObject} (h : o ∈ b.objects) :
    o.definition ∈ b.schema.definitions :=
  b.objects_definitions ▸ List.mem_map_of_mem h

theorem mem_of_mem_callsOf {call : String × Block} {namespaceName : String}
    (h : call ∈ callsOf namespaceName calls) : call ∈ calls :=
  (List.mem_filter.mp h).1

/-- A block of a registry has the file of a call. -/
theorem exists_call_of_mem_schemas {e : String × SchemaBlock} (h : e ∈ (ofCalls calls).schemas) :
    ∃ call ∈ calls, call.1 = e.1 := by
  obtain ⟨call, hcall, rfl⟩ := List.mem_map.mp h
  rw [ingested_ofCalls] at hcall
  exact ⟨call, (List.mem_filter.mp hcall).1, rfl⟩

/-- The entries of a namespace come from its blocks. -/
theorem exists_callsOf_of_mem_infos {namespaceName : String} {i : BlockInfo}
    (h : i ∈ (ofCalls calls).infos.get namespaceName) :
    ∃ call ∈ callsOf namespaceName calls, call.1 = i.sourceFile := by
  rw [infos_get_ofCalls] at h
  obtain ⟨call, hcall, rfl⟩ := List.mem_map.mp h
  exact ⟨call, hcall, rfl⟩

/-- The records of an element come from the blocks of its namespace. -/
theorem exists_callsOf_of_mem_records {key : ElementKey} {a : ElementRecord}
    (h : a ∈ (ofCalls calls).records key) :
    ∃ call ∈ callsOf key.namespaceName calls, call.1 = a.sourceFile ∧
      a.object ∈ call.2.objects := by
  rw [records_ofCalls, flatMap_filed] at h
  obtain ⟨call, hcall, ha⟩ := List.mem_flatMap.mp h
  obtain ⟨o, ho, rfl⟩ := List.mem_map.mp ha
  exact ⟨call, hcall, rfl, (List.mem_filter.mp ho).1⟩

/-- Annotations come from any of the blocks. -/
theorem exists_call_of_mem_annotations {key : AnnotationKey} {a : AnnotationRecord}
    (h : a ∈ (ofCalls calls).annotations.get key) : ∃ call ∈ calls, call.1 = a.sourceFile := by
  rw [annotations_ofCalls, Index.get_addAll] at h
  obtain ⟨e, he, rfl⟩ := List.mem_map.mp ((List.mem_append.mp h).resolve_left List.not_mem_nil)
  obtain ⟨call, hcall, he⟩ := List.mem_flatMap.mp (List.mem_filter.mp he).1
  refine ⟨call, hcall, ?_⟩
  unfold annotationEntries at he
  split at he
  · exact absurd he List.not_mem_nil
  · obtain ⟨p, -, rfl⟩ := List.mem_map.mp he
    rfl

/-- **The files of a namespace can be looked up** in the list of all of them. -/
theorem find?_namespaceFiles (r : Registry) (namespaceName : String) :
    (r.namespaceFiles.find? fun e => e.1 == namespaceName).map Prod.snd =
      r.filesOf? namespaceName := by
  have hnodup : (r.namespaceFiles.map Prod.fst).Nodup := r.files.nodup_keys
  unfold filesOf?
  split
  · next hkey =>
    obtain ⟨e, he, rfl⟩ := List.mem_map.mp (Index.mem_keys_iff.mpr hkey)
    rw [(find?_key_eq_some_iff hnodup).mpr ⟨he, rfl⟩, Index.get_of_mem he]
    rfl
  · next hkey =>
    rw [List.find?_eq_none.mpr, Option.map_none]
    intro e he heq
    exact hkey (Index.mem_keys_iff.mp (List.mem_map.mpr ⟨e, he, by simpa using heq⟩))

/-- **The files of a namespace are those of its blocks.** -/
theorem exists_filesOf?_ofCalls {call : String × Block} {namespaceName : String}
    (hcall : call ∈ callsOf namespaceName calls) :
    ∃ files, (ofCalls calls).filesOf? namespaceName = some files ∧
      ∀ file, file ∈ files ↔ ∃ call ∈ callsOf namespaceName calls, call.1 = file :=
  have hkey : (ofCalls calls).files.hasKey namespaceName = true :=
    Index.mem_keys_iff.mp (mem_namespaces_ofCalls.mpr ⟨call, hcall⟩)
  ⟨_, if_pos hkey, fun _ => mem_files_ofCalls⟩

end Origin

/-- **After a sequence of calls the registry holds what they gave it.** -/
theorem indexes_ofCalls (calls : List (String × Block)) : Indexes calls (ofCalls calls) where
  schemas := congrArg _ (ingested_ofCalls calls)
  own := fun _ _ _ => SchemaBlock.ownNamespace?_eq_some_iff
  objects := fun call _ => by
    refine ⟨?_, call.2.objects_handles⟩
    rw [← SchemaBlock.map_listing_definitions, ← Block.objects_definitions, List.map_map]
    rfl
  records := fun key => (records_ofCalls calls key).trans (flatMap_filed key calls)
  elements := fun key => mem_elements_ofCalls
  infos := infos_get_ofCalls calls
  namespaces := fun namespaceName => mem_namespaces_ofCalls
  sameNamespaces := ⟨(namespaces_ofCalls calls).symm, rfl⟩
  files := by
    intro e he
    rw [← Index.get_of_mem he]
    refine ⟨?_, fun file => mem_files_ofCalls⟩
    exact (isSets_files_ofCalls calls e.1).imp Std.LawfulLTCmp.eq_lt_iff_lt.mp
  annotations := by
    rw [annotations_ofCalls]
    exact (Index.perm_entries_addAll _ _).trans
      (List.Perm.flatMap_left calls fun call _ => perm_annotationsOf call)
  places := by
    intro key
    rw [annotations_ofCalls, Index.mem_keys_addAll_empty]
    exact exists_congr fun e => and_congr_left fun _ =>
      (List.Perm.flatMap_left calls fun call _ => perm_annotationsOf call).mem_iff
  elementCount := by
    rw [elementCount, elements_ofCalls, Index.size_eq_length_entries,
      (Index.perm_entries_addAll _ _).length_eq, (total_outcomes empty calls).1]
    rfl
  annotationCount := by
    rw [annotations_ofCalls, Index.size_eq_length_entries,
      (Index.perm_entries_addAll _ _).length_eq, (total_outcomes empty calls).2]
    rfl

/-- Further calls put what they file behind what is there. -/
theorem extends_foldl (r : Registry) (calls : List (String × Block)) :
    Extends r (calls.foldl (fun r c => (r.ingest c.1 c.2).1) r) := by
  obtain ⟨helements, hfiles, hinfos, hannotations⟩ := foldl_ingest_entries calls r
  constructor
  · rw [schemas, schemas, ingested_foldl, List.map_append]
    exact List.prefix_append _ _
  · intro key
    rw [records, records, helements]
    exact Index.get_prefix_addAll _ _ key
  · intro namespaceName hmem
    rw [namespaces, Index.mem_keys_iff] at hmem ⊢
    rw [hfiles, Index.hasKey_insertAll]
    exact Or.inl hmem
  · intro namespaceName file hmem
    rw [hfiles, Index.mem_get_insertAll]
    exact Or.inl hmem
  · intro namespaceName
    rw [hinfos]
    exact Index.get_prefix_addAll _ _ namespaceName
  · intro key
    rw [hannotations]
    exact Index.get_prefix_addAll _ _ key

/-- **The history of a registry.** After a sequence of calls it holds exactly what they gave it. The
next call is skipped just when its block names no namespace or an empty one, and then changes nothing;
and whatever calls follow, the lists that are there only grow at their ends. -/
theorem history_ofCalls (calls : List (String × Block)) :
    Indexes calls (ofCalls calls) ∧
      (∀ file b, (((ofCalls calls).ingest file b).2 = .skipped ↔
          b.schema.namespaceName.getD "" = "") ∧
        (((ofCalls calls).ingest file b).2 = .skipped →
          ((ofCalls calls).ingest file b).1 = ofCalls calls)) ∧
      ∀ later, Extends (ofCalls calls) (ofCalls (calls ++ later)) := by
  refine ⟨indexes_ofCalls calls,
    fun file b => ⟨(outcome_eq_skipped_iff _ file b).trans SchemaBlock.ownNamespace?_eq_none_iff,
      ingest_of_skipped⟩, fun later => ?_⟩
  rw [ofCalls, ofCalls, List.foldl_append]
  exact extends_foldl _ later

/-- A type with an annotated property, and a container that offers one thing of each kind. The
annotation of the type itself has a qualifier and no value. -/
def shop : SchemaBlock :=
  { SchemaBlock.bare (some "N") none with
    entityTypes := [{ StructuredType.named "E" with
      annotations := [⟨"T", some "q", none⟩]
      properties := [⟨"P", "Edm.String", true, none, none, [.of "T" "inside"]⟩] }]
    entityContainer := some ⟨"C", none, [⟨"S", "N.E", [], [.of "T" "offered"]⟩],
      [⟨"One", "N.E", []⟩], [⟨"Do", "N.Act", none, []⟩], [⟨"Get", "N.Find", none, false, []⟩], []⟩
    externalAnnotations := [⟨"N.E", [.of "T" "outside"]⟩] }

/-- The block of a shop, one without a namespace, and one of another file with the namespace. -/
def shopCalls : List (String × Block) :=
  [("a.xml", .fresh 0 shop), ("c.xml", .fresh 6 (.bare none none)),
    ("b.xml", .fresh 6 (.bare (some "N") none))]

/-- **The history of a shop**: what its container offers is filed beside the container, and all
three kinds of annotation are. -/
theorem history_shop : Indexes shopCalls (ofCalls shopCalls) ∧
    (ofCalls shopCalls).elements.keys.map (·.name) = ["C", "Do", "E", "Get", "One", "S"] ∧
    ((ofCalls shopCalls).records ⟨"N", "S"⟩).map (fun a => (a.kind, a.sourceFile)) =
      [(.entitySet, "a.xml")] ∧
    (ofCalls shopCalls).namespaceFiles = [("N", ["a.xml", "b.xml"])] ∧
    (ofCalls shopCalls).annotations.entries.map (fun e => (e.1.element, e.1.term, e.2.value)) =
      [("E", "T", "outside"), ("E", "T#q", "T"), ("E/P", "T", "inside"), ("S", "T", "offered")] ∧
    ((ofCalls shopCalls).ingest "d.xml" (.fresh 6 (.bare (some "") none))).2 = .skipped :=
  ⟨(history_ofCalls shopCalls).1, by decide +kernel, by decide +kernel, by decide +kernel,
    by decide +kernel, ((history_ofCalls shopCalls).2.1 _ _).1.mpr rfl⟩

end Registry

end CsdlAudit
