import CsdlAudit.Proofs.Conflict.Passes

/-!
# Values that do not agree

The pass over annotations makes exactly one conflict of each place and term whose annotations carry
two different values, wherever these come from (`annotationPass_ofCalls`). The conflict names all
files of these annotations. Its details list their values, each with its file, in the order in which
they were filed.

The list is meant to have no repeats, but a pair of value and file is left out only if it equals the
one before it (`dropRepeats`). So a pair stands in the list again when another one has come between:
the list has each pair once, in the order of their first occurrences, just when no pair returns
(`dropRepeats_eq_eraseDups_iff`), and a file that goes back to an earlier value shows that pairs do
return (`values_listed_twice`).
-/

namespace CsdlAudit

/-! ## Lists without equal neighbours -/

section Repeats

variable {α : Type} {l : List α}

/-- In a list without equal neighbours something stands between two equal members. -/
theorem exists_between_of_isChain {a : α} (hl : l.IsChain (· ≠ ·)) (h : [a, a].Sublist l) :
    ∃ b, b ≠ a ∧ [a, b, a].Sublist l := by
  induction l with
  | nil => cases h
  | cons x rest ih =>
    cases h with
    | cons _ h =>
      obtain ⟨b, hb, h⟩ := ih hl.of_cons h
      exact ⟨b, hb, h.cons x⟩
    | cons_cons _ h =>
      cases rest with
      | nil => cases h
      | cons b rest =>
        have hne := (List.isChain_cons_cons.mp hl).1
        cases h with
        | cons _ h => exact ⟨b, hne.symm, (h.cons_cons b).cons_cons a⟩
        | cons_cons _ h => exact absurd rfl hne

section First

variable [BEq α] [LawfulBEq α]

theorem nodup_eraseDups (l : List α) : l.eraseDups.Nodup := by
  cases l with
  | nil => exact List.nodup_nil
  | cons a rest =>
    rw [List.eraseDups_cons]
    refine List.nodup_cons.mpr ⟨fun h => ?_, nodup_eraseDups _⟩
    simp at h
termination_by l.length
decreasing_by exact Nat.lt_succ_of_le (List.length_filter_le _ rest)

theorem eraseDups_eq_self (h : l.Nodup) : l.eraseDups = l := by
  induction l with
  | nil => rfl
  | cons a rest ih =>
    obtain ⟨ha, hrest⟩ := List.nodup_cons.mp h
    have hfilter : rest.filter (fun b => !b == a) = rest :=
      List.filter_eq_self.mpr fun b hb => by
        have hne : b ≠ a := fun e => ha (e ▸ hb)
        simpa using hne
    rw [List.eraseDups_cons, hfilter, ih hrest]

end First

variable [DecidableEq α]

theorem dropRepeats_sublist (l : List α) : (dropRepeats l).Sublist l := by
  fun_induction dropRepeats l with
  | case1 => exact List.Sublist.refl _
  | case2 a => exact List.Sublist.refl _
  | case3 b rest ih => exact ih.cons b
  | case4 a b rest hne ih => exact ih.cons_cons a

theorem head?_dropRepeats (l : List α) : (dropRepeats l).head? = l.head? := by
  fun_induction dropRepeats l with
  | case1 => rfl
  | case2 a => rfl
  | case3 b rest ih => exact ih
  | case4 a b rest hne ih => rfl

theorem isChain_dropRepeats (l : List α) : (dropRepeats l).IsChain (· ≠ ·) := by
  fun_induction dropRepeats l with
  | case1 => exact .nil
  | case2 a => exact .singleton a
  | case3 b rest ih => exact ih
  | case4 a b rest hne ih =>
    have hhead := head?_dropRepeats (b :: rest)
    cases hdrop : dropRepeats (b :: rest) with
    | nil => exact .singleton a
    | cons c kept =>
      rw [hdrop] at hhead ih
      obtain rfl := Option.some.inj hhead
      exact .cons_cons hne ih

/-- **Dropping repeats keeps the first occurrences**, and these in their order. -/
theorem eraseDups_dropRepeats [BEq α] [LawfulBEq α] (l : List α) :
    (dropRepeats l).eraseDups = l.eraseDups := by
  -- what comes behind the first member is looked at without that member
  have hfilter : ∀ p : α → Bool,
      ((dropRepeats l).filter p).eraseDups = (l.filter p).eraseDups := by
    fun_induction dropRepeats l with
    | case1 => exact fun _ => rfl
    | case2 a => exact fun _ => rfl
    | case3 b rest ih =>
      intro p
      rw [ih]
      by_cases hp : p b = true
      · simp [List.filter_cons_of_pos hp, List.eraseDups_cons]
      · rw [List.filter_cons_of_neg hp, List.filter_cons_of_neg hp, List.filter_cons_of_neg hp]
    | case4 a b rest hne ih =>
      intro p
      by_cases hp : p a = true
      · rw [List.filter_cons_of_pos hp, List.filter_cons_of_pos hp, List.eraseDups_cons,
          List.eraseDups_cons, List.filter_filter, List.filter_filter, ih]
      · rw [List.filter_cons_of_neg hp, List.filter_cons_of_neg hp, ih]
  simpa using hfilter fun _ => true

/-- A list without equal neighbours is left in. -/
theorem sublist_dropRepeats_of_isChain {c : List α} (hc : c.IsChain (· ≠ ·)) (h : c.Sublist l) :
    c.Sublist (dropRepeats l) := by
  fun_induction dropRepeats l generalizing c with
  | case1 => exact h
  | case2 a => exact h
  | case3 b rest ih =>
    refine ih hc ?_
    cases h with
    | cons _ h => exact h
    | cons_cons _ h =>
      -- the second `b` can stand for the first, as the next member is none
      cases h with
      | cons _ h => exact h.cons_cons b
      | cons_cons _ h => exact absurd rfl (List.isChain_cons_cons.mp hc).1
  | case4 a b rest hne ih =>
    cases h with
    | cons _ h => exact (ih hc h).cons a
    | cons_cons _ h => exact (ih hc.of_cons h).cons_cons a

/-- **Dropping repeats leaves the first occurrences alone just when no member returns** behind
another one. -/
theorem dropRepeats_eq_eraseDups_iff [BEq α] [LawfulBEq α] :
    dropRepeats l = l.eraseDups ↔ ∀ a b, b ≠ a → ¬[a, b, a].Sublist l := by
  constructor
  · intro h a b hne hreturn
    have hnodup : (dropRepeats l).Nodup := h ▸ nodup_eraseDups l
    have hkept : [a, b, a].Sublist (dropRepeats l) :=
      sublist_dropRepeats_of_isChain (by simp [hne, hne.symm]) hreturn
    exact List.nodup_iff_sublist.mp hnodup a
      (((List.Sublist.refl [a]).cons b |>.cons_cons a).trans hkept)
  · intro h
    have hnodup : (dropRepeats l).Nodup := by
      refine List.nodup_iff_sublist.mpr fun a hrepeat => ?_
      obtain ⟨b, hne, hreturn⟩ := exists_between_of_isChain (isChain_dropRepeats l) hrepeat
      exact h a b hne (hreturn.trans (dropRepeats_sublist l))
    rw [← eraseDups_dropRepeats, eraseDups_eq_self hnodup]

end Repeats

/-! ## The pass -/

namespace Registry

/-- **The annotations under a key do not agree**: two of them have different values. -/
def Contested (r : Registry) (key : AnnotationKey) : Prop :=
  ∃ a ∈ r.annotations.get key, ∃ b ∈ r.annotations.get key, a.value ≠ b.value

/-- The values under a key, each with its file, in the order in which they were filed. -/
def valuesOf (r : Registry) (key : AnnotationKey) : List (String × String) :=
  (r.annotations.get key).map fun a => (a.value, a.sourceFile)

/-- **The annotations that calls file under a key**, inline ones and those from outside. -/
def filedAnnotations (key : AnnotationKey) (calls : List (String × Block)) :
    List AnnotationRecord :=
  ((calls.flatMap annotationEntries).filter fun e => e.1 = key).map Prod.snd

theorem annotations_get_ofCalls (calls : List (String × Block)) (key : AnnotationKey) :
    (ofCalls calls).annotations.get key = filedAnnotations key calls := by
  have hkey : ∀ e : AnnotationKey × AnnotationRecord,
      decide (compare key e.1 = .eq) = decide (e.1 = key) := fun e =>
    decide_eq_decide.mpr (Std.LawfulEqCmp.compare_eq_iff_eq.trans eq_comm)
  rw [annotations_ofCalls, Index.get_addAll, filedAnnotations]
  simp only [hkey]
  exact List.nil_append _

/-! ## Values of several groups of calls -/

/-- **The values that calls file under a key**, whatever the files. -/
def filedValues (key : AnnotationKey) (calls : List (String × Block)) : List String :=
  (filedAnnotations key calls).map (·.value)

/-- **The calls place an annotation** on an element or on a member of it. -/
def Places (calls : List (String × Block)) (namespaceName element : String) (a : Annotation) :
    Prop :=
  ∃ call ∈ calls, ∃ own, call.2.schema.ownNamespace? = some own ∧
    (namespaceName, element, a) ∈ call.2.schema.placedAnnotations own

section Groups

variable {key : AnnotationKey} {calls calls₁ calls₂ : List (String × Block)}

/-- **Annotations agree** when there are no two values. -/
theorem contested_ofCalls_iff : (ofCalls calls).Contested key ↔
    ∃ v ∈ filedValues key calls, ∃ w ∈ filedValues key calls, v ≠ w := by
  rw [Contested, annotations_get_ofCalls, filedValues]
  simp only [List.mem_map, exists_exists_and_eq_and]

theorem filedValues_append :
    filedValues key (calls₁ ++ calls₂) = filedValues key calls₁ ++ filedValues key calls₂ := by
  simp only [filedValues, filedAnnotations, List.flatMap_append, List.filter_append,
    List.map_append]

theorem filedValues_singleton_congr {call call' : String × Block}
    (h : call.2.schema = call'.2.schema) : filedValues key [call] = filedValues key [call'] := by
  simp only [filedValues, filedAnnotations, List.flatMap_singleton, annotationEntries, h]
  cases call'.2.schema.ownNamespace? with
  | none => rfl
  | some namespaceName => simp only [List.filter_map, List.map_map, Function.comp_def]

/-- **The values come from the blocks alone.** -/
theorem filedValues_congr
    (h : calls₁.map (fun call => call.2.schema) = calls₂.map fun call => call.2.schema) :
    filedValues key calls₁ = filedValues key calls₂ := by
  induction calls₁ generalizing calls₂ with
  | nil =>
    obtain rfl := List.map_eq_nil_iff.mp h.symm
    rfl
  | cons call rest ih =>
    obtain ⟨call', rest', rfl, hcall, hrest⟩ := List.map_eq_cons_iff.mp h.symm
    have hfirst : filedValues key [call] = filedValues key [call'] :=
      filedValues_singleton_congr hcall.symm
    have hbehind : filedValues key rest = filedValues key rest' := ih hrest.symm
    calc filedValues key ([call] ++ rest)
      _ = filedValues key [call'] ++ filedValues key rest' := by
        rw [filedValues_append, hfirst, hbehind]
      _ = filedValues key ([call'] ++ rest') := filedValues_append.symm

/-- **Files with the same blocks** do not agree just when one of them does not agree with
itself. -/
theorem contested_append_iff_of_schemas
    (h : calls₁.map (fun call => call.2.schema) = calls₂.map fun call => call.2.schema) :
    (ofCalls (calls₁ ++ calls₂)).Contested key ↔ (ofCalls calls₁).Contested key := by
  rw [contested_ofCalls_iff, contested_ofCalls_iff, filedValues_append, ← filedValues_congr h]
  simp only [List.mem_append, or_self]

/-- **Files that have a value in common** do not agree just when one of them does not agree with
itself. -/
theorem contested_append_iff_of_common {v : String} (h₁ : v ∈ filedValues key calls₁)
    (h₂ : v ∈ filedValues key calls₂) :
    (ofCalls (calls₁ ++ calls₂)).Contested key ↔
      (ofCalls calls₁).Contested key ∨ (ofCalls calls₂).Contested key := by
  rw [contested_ofCalls_iff, contested_ofCalls_iff, contested_ofCalls_iff, filedValues_append]
  constructor
  · rintro ⟨a, ha, b, hb, hne⟩
    by_contra hagree
    rw [not_or] at hagree
    -- whoever agrees with itself has no other value than the common one
    have hcommon : ∀ w ∈ filedValues key calls₁ ++ filedValues key calls₂, w = v := by
      intro w hw
      by_contra hother
      rcases List.mem_append.mp hw with hw | hw
      · exact hagree.1 ⟨w, hw, v, h₁, hother⟩
      · exact hagree.2 ⟨w, hw, v, h₂, hother⟩
    exact hne ((hcommon a ha).trans (hcommon b hb).symm)
  · rintro (⟨a, ha, b, hb, hne⟩ | ⟨a, ha, b, hb, hne⟩)
    · exact ⟨a, List.mem_append_left _ ha, b, List.mem_append_left _ hb, hne⟩
    · exact ⟨a, List.mem_append_right _ ha, b, List.mem_append_right _ hb, hne⟩

/-- The value of an annotation is filed where it was placed. -/
theorem Places.valueText_mem {namespaceName element : String} {a : Annotation}
    (h : Places calls namespaceName element a) :
    a.valueText ∈ filedValues ⟨namespaceName, element, a.termKey⟩ calls := by
  obtain ⟨call, hcall, own, hown, hplaced⟩ := h
  have hentry : ((⟨namespaceName, element, a.termKey⟩, ⟨a.valueText, call.1⟩) :
      AnnotationKey × AnnotationRecord) ∈ annotationEntries call := by
    rw [annotationEntries, hown]
    exact List.mem_map_of_mem hplaced
  refine List.mem_map.mpr ⟨⟨a.valueText, call.1⟩, List.mem_map.mpr ⟨_, List.mem_filter.mpr
    ⟨List.mem_flatMap.mpr ⟨call, hcall, hentry⟩, decide_eq_true rfl⟩, rfl⟩, rfl⟩

end Groups

end Registry

/-- A list of values with their files, as the details of a conflict have it. -/
def valueList (values : List (String × String)) : String :=
  "Values: " ++ Text.join ", " (values.map fun v => "'" ++ v.1 ++ "' in " ++ v.2)

/-- **What the conflict of a key says**, given the values under the key. -/
structure TellsValues (values : List (String × String)) (key : AnnotationKey) (c : Conflict) :
    Prop where
  /-- It is a conflict of annotations. -/
  type : c.type = .annotationConflict
  /-- It is about the namespace. -/
  namespaceName : c.namespaceName = key.namespaceName
  /-- It is about the element or the path of a member. -/
  elementName : c.elementName = some key.element
  /-- Its description names the term as well. -/
  description : c.description = "Conflicting annotation values for term '" ++ key.term ++
    "' on element '" ++ key.element ++ "' in namespace '" ++ key.namespaceName ++ "'"
  /-- Its files ascend. -/
  ascending : c.files.Pairwise (· < ·)
  /-- They are all files with a value. -/
  files : ∀ file, file ∈ c.files ↔ ∃ v ∈ values, v.2 = file
  /-- Its details list values in their order: each of them, first occurrences first, and none
  behind itself. Each stands once just when none of the values returns behind another one. -/
  details : ∃ listed, c.details = valueList listed ∧ listed.Sublist values ∧
    listed.eraseDups = values.eraseDups ∧ listed.IsChain (· ≠ ·) ∧
    (listed = values.eraseDups ↔ ∀ v w, w ≠ v → ¬[v, w, v].Sublist values)

/-- The conflict that the pass makes of a key. -/
theorem tellsValues_valueConflictOf (key : AnnotationKey) (records : List AnnotationRecord) :
    TellsValues (records.map fun a => (a.value, a.sourceFile)) key
      (valueConflictOf key records) where
  type := rfl
  namespaceName := rfl
  elementName := rfl
  description := rfl
  ascending := Ascending.pairwise_lt_ofList _
  files := by
    intro file
    rw [mem_files_valueConflictOf]
    simp
  details := ⟨dropRepeats (records.map fun a => (a.value, a.sourceFile)), rfl,
    dropRepeats_sublist _, eraseDups_dropRepeats _, isChain_dropRepeats _,
    dropRepeats_eq_eraseDups_iff⟩

/-- **What the pass over annotations reports** of the registry after a sequence of calls. -/
structure AnnotationPass (calls : List (String × Block)) : Prop where
  /-- The annotations of a key are those that the calls filed under it. -/
  records : ∀ key,
    (Registry.ofCalls calls).annotations.get key = Registry.filedAnnotations key calls
  /-- Each key whose annotations do not agree has one conflict, and no other key has any. -/
  conflicts : OnePerKey (Registry.ofCalls calls).Contested
    (fun key => TellsValues ((Registry.ofCalls calls).valuesOf key) key)
    (annotationConflicts (Registry.ofCalls calls))

/-- **The pass over annotations reports what does not agree**, whatever the calls. -/
theorem annotationPass_ofCalls (calls : List (String × Block)) : AnnotationPass calls where
  records := Registry.annotations_get_ofCalls calls
  conflicts := by
    refine (onePerKey_filterMap (Registry.ofCalls calls).annotations valuesDiffer valueConflictOf
      rfl).mono (fun key => valuesDiffer_iff) fun key c _ hc => ?_
    exact hc ▸ tellsValues_valueConflictOf key _

/-- One file that gives an annotation a value, another one, and the first one again. -/
def wavering : List (String × Block) :=
  [("a.xml", Block.fresh 0
    { SchemaBlock.bare (some "N") none with
      entityTypes := [{ StructuredType.named "E" with
        annotations := [.of "T" "x", .of "T" "y", .of "T" "x"] }] })]

/-- **A value that returns is listed twice**: the details do not list each value with its file once,
in the order of first occurrences. -/
theorem values_listed_twice :
    (annotationConflicts (Registry.ofCalls wavering)).map (·.details) =
        ["Values: 'x' in a.xml, 'y' in a.xml, 'x' in a.xml"] ∧
      ¬OnePerKey (Registry.ofCalls wavering).Contested
        (fun key c => c.details = valueList ((Registry.ofCalls wavering).valuesOf key).eraseDups)
        (annotationConflicts (Registry.ofCalls wavering)) := by
  have hdetails : (annotationConflicts (Registry.ofCalls wavering)).map (·.details) =
      ["Values: 'x' in a.xml, 'y' in a.xml, 'x' in a.xml"] := by decide +kernel
  have hkeys : (Registry.ofCalls wavering).annotations.keys = [⟨"N", "E", "T"⟩] := by
    decide +kernel
  have honce : valueList ((Registry.ofCalls wavering).valuesOf ⟨"N", "E", "T"⟩).eraseDups =
      "Values: 'x' in a.xml, 'y' in a.xml" := by decide +kernel
  refine ⟨hdetails, ?_⟩
  rintro ⟨keys, -, hcontested, hconflicts⟩
  -- only one key has annotations
  have hkey : ∀ key ∈ keys, key = ⟨"N", "E", "T"⟩ := by
    intro key hkey
    obtain ⟨a, ha, -⟩ := (hcontested key).mp hkey
    have hentry := List.mem_map_of_mem (f := Prod.fst)
      (Index.mem_toList_of_get_ne_nil (List.ne_nil_of_mem ha))
    exact List.mem_singleton.mp (hkeys ▸ hentry)
  have hlisted : List.Forall₂ (fun key details =>
      details = valueList ((Registry.ofCalls wavering).valuesOf key).eraseDups) keys
      ["Values: 'x' in a.xml, 'y' in a.xml, 'x' in a.xml"] := by
    rw [← hdetails, List.forall₂_map_right_iff]
    exact hconflicts
  obtain ⟨key, rest, hlist, -, rfl⟩ := List.forall₂_cons_right_iff.mp hlisted
  rw [hkey key List.mem_cons_self, honce] at hlist
  exact absurd hlist (by decide)

end CsdlAudit
