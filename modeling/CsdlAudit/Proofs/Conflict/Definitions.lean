import CsdlAudit.Conflict.Detect
import CsdlAudit.Proofs.Ascending
import CsdlAudit.Proofs.Registry.Ingest
import CsdlAudit.Proofs.Schema.Canonical

/-!
# The definition passes report the redefinitions across files

The passes over definitions count: an element is reported when several files define it and several
objects do, whichever objects come from whichever files. That this finds exactly the elements with
two definitions that differ in both respects is a matter of counting
(`exists_differ_in_both`): a third definition that differs from two equal ones in the one respect
differs from one of them in the other. So `clash` is about one pair of records (`clash_iff`), and so
is the comparison of canonical texts (`clash_and_incompatible_iff`), as long as no two of the texts
have one fingerprint.

A pass goes over the keys in their order and makes at most one conflict of each; `ReportsExactly`
says what this comes to, and `definitionPasses_ofCalls` says it of every pass over every registry.
-/

namespace CsdlAudit

/-! ## Pairs that differ -/

section Differ

variable {α β γ : Type} {l : List α} {f : α → β} {g : α → γ}

/-- **Members that differ in one respect, and members that differ in another, make members that
differ in both.** -/
theorem exists_differ_in_both (hf : ∃ a ∈ l, ∃ b ∈ l, f a ≠ f b)
    (hg : ∃ a ∈ l, ∃ b ∈ l, g a ≠ g b) : ∃ a ∈ l, ∃ b ∈ l, f a ≠ f b ∧ g a ≠ g b := by
  obtain ⟨a, ha, b, hb, hab⟩ := hf
  by_cases hgab : g a = g b
  · obtain ⟨c, hc, hca⟩ : ∃ c ∈ l, g c ≠ g a := by
      obtain ⟨c, hc, d, hd, hcd⟩ := hg
      by_cases hca : g c = g a
      · exact ⟨d, hd, fun hda => hcd (hca.trans hda.symm)⟩
      · exact ⟨c, hc, hca⟩
    -- the third member differs from one of the two in the first respect
    by_cases hfca : f c = f a
    · exact ⟨c, hc, b, hb, fun h => hab (hfca.symm.trans h), fun h => hca (h.trans hgab.symm)⟩
    · exact ⟨c, hc, a, ha, hfca, hca⟩
  · exact ⟨a, ha, b, hb, hab, hgab⟩

/-- A list shows by its first member whether two of its members differ. -/
theorem any_ne_iff [DecidableEq β] {first : α} :
    (l.any fun a => f a != f first) = true ↔
      ∃ a ∈ first :: l, ∃ b ∈ first :: l, f a ≠ f b := by
  rw [List.any_eq_true]
  constructor
  · rintro ⟨a, ha, hne⟩
    exact ⟨a, List.mem_cons_of_mem _ ha, first, List.mem_cons_self, bne_iff_ne.mp hne⟩
  · rintro ⟨a, ha, b, hb, hne⟩
    have other : ∀ c ∈ first :: l, f c ≠ f first → ∃ x ∈ l, (f x != f first) = true := by
      intro c hc hcf
      refine ⟨c, (List.mem_cons.mp hc).resolve_left ?_, bne_iff_ne.mpr hcf⟩
      exact fun e => hcf (congrArg f e)
    by_cases haf : f a = f first
    · exact other b hb (fun hbf => hne (haf.trans hbf.symm))
    · exact other a ha haf

/-- A list whose members all differ has two if two of them differ. -/
theorem one_lt_length_iff (h : (l.map f).Nodup) :
    1 < l.length ↔ ∃ a ∈ l, ∃ b ∈ l, f a ≠ f b := by
  match l with
  | [] => simp
  | [a] => simp
  | a :: b :: rest =>
    have hne : f a ≠ f b := fun e => (List.nodup_cons.mp h).1 (e ▸ List.mem_cons_self)
    exact ⟨fun _ => ⟨a, List.mem_cons_self, b, by simp, hne⟩, fun _ => by simp⟩

end Differ

/-! ## The records of one key -/

section Records

variable {records : List ElementRecord} {seen : List DefinitionObject} {a b : ElementRecord}

theorem mem_firstRecords (h : a ∈ firstRecords seen records) : a ∈ records ∧ a.object ∉ seen := by
  induction records generalizing seen with
  | nil => exact absurd h List.not_mem_nil
  | cons r rest ih =>
    rw [firstRecords] at h
    split at h
    · exact (ih h).imp_left (List.mem_cons_of_mem r)
    · next hr =>
      rcases List.mem_cons.mp h with rfl | h
      · exact ⟨List.mem_cons_self, hr⟩
      · exact (ih h).imp (List.mem_cons_of_mem r) fun hnot hs => hnot (List.mem_cons_of_mem _ hs)

/-- Each object has a first record. -/
theorem exists_firstRecords (ha : a ∈ records) (hseen : a.object ∉ seen) :
    ∃ r ∈ firstRecords seen records, r.object = a.object := by
  induction records generalizing seen with
  | nil => exact absurd ha List.not_mem_nil
  | cons r rest ih =>
    rw [firstRecords]
    by_cases hr : r.object = a.object
    · rw [if_neg (hr ▸ hseen)]
      exact ⟨r, List.mem_cons_self, hr⟩
    · have harest : a ∈ rest :=
        (List.mem_cons.mp ha).resolve_left fun e => hr (congrArg ElementRecord.object e.symm)
      split
      · exact ih harest hseen
      · have hseen' : a.object ∉ r.object :: seen := fun h =>
          (List.mem_cons.mp h).elim (fun e => hr e.symm) hseen
        obtain ⟨s, hs, hobject⟩ := ih harest hseen'
        exact ⟨s, List.mem_cons_of_mem r hs, hobject⟩

/-- No object has two first records. -/
theorem nodup_firstRecords (seen : List DefinitionObject) (records : List ElementRecord) :
    ((firstRecords seen records).map (·.object)).Nodup := by
  induction records generalizing seen with
  | nil => exact List.nodup_nil
  | cons r rest ih =>
    rw [firstRecords]
    split
    · exact ih seen
    · refine List.nodup_cons.mpr ⟨fun hmem => ?_, ih _⟩
      obtain ⟨s, hs, hobject⟩ := List.mem_map.mp hmem
      exact (mem_firstRecords hs).2 (hobject ▸ List.mem_cons_self)

/-- Two of the first records differ just when two of the records do. -/
theorem exists_firstRecords_iff {β : Type} {f : DefinitionObject → β} :
    (∃ a ∈ distinctBodies records, ∃ b ∈ distinctBodies records, f a.object ≠ f b.object) ↔
      ∃ a ∈ records, ∃ b ∈ records, f a.object ≠ f b.object := by
  constructor
  · rintro ⟨a, ha, b, hb, hab⟩
    exact ⟨a, (mem_firstRecords ha).1, b, (mem_firstRecords hb).1, hab⟩
  · rintro ⟨a, ha, b, hb, hab⟩
    have hnone : ∀ o : DefinitionObject, o ∉ [] := fun _ => List.not_mem_nil
    obtain ⟨a', ha', hfa⟩ := exists_firstRecords ha (hnone a.object)
    obtain ⟨b', hb', hfb⟩ := exists_firstRecords hb (hnone b.object)
    exact ⟨a', ha', b', hb', hfa ▸ hfb ▸ hab⟩

theorem one_lt_filesOf_iff : 1 < (filesOf records).length ↔
    ∃ a ∈ records, ∃ b ∈ records, a.sourceFile ≠ b.sourceFile := by
  rw [filesOf, Ascending.one_lt_length_ofList]
  simp only [List.mem_map, exists_exists_and_eq_and]

/-- **Records clash when two of them differ in file and in object.** -/
theorem clash_iff : clash records = true ↔
    ∃ a ∈ records, ∃ b ∈ records, a.sourceFile ≠ b.sourceFile ∧ a.object ≠ b.object := by
  have hbodies : 1 < (distinctBodies records).length ↔
      ∃ a ∈ records, ∃ b ∈ records, a.object ≠ b.object :=
    (one_lt_length_iff (nodup_firstRecords [] records)).trans
      (exists_firstRecords_iff (f := fun o => o))
  simp only [clash, Bool.and_eq_true, decide_eq_true_eq, one_lt_filesOf_iff, hbodies]
  constructor
  · exact fun h => exists_differ_in_both h.1 h.2
  · rintro ⟨a, ha, b, hb, hfile, hobject⟩
    exact ⟨⟨a, ha, b, hb, hfile⟩, a, ha, b, hb, hobject⟩

theorem kindsDiffer_iff : kindsDiffer records = true ↔
    ∃ a ∈ records, ∃ b ∈ records, a.kind ≠ b.kind := by
  cases records with
  | nil => simp [kindsDiffer]
  | cons r rest => exact any_ne_iff

theorem printsDiffer_iff : printsDiffer records = true ↔ ∃ a ∈ records, ∃ b ∈ records,
    a.object.definition.fingerprint ≠ b.object.definition.fingerprint := by
  cases records with
  | nil => simp [printsDiffer]
  | cons r rest => exact any_ne_iff (f := fun s : ElementRecord => s.object.definition.fingerprint)

/-- The first records of the objects have different fingerprints just when some records do. -/
theorem printsDiffer_distinctBodies_iff : printsDiffer (distinctBodies records) = true ↔
    ∃ a ∈ records, ∃ b ∈ records,
      a.object.definition.fingerprint ≠ b.object.definition.fingerprint :=
  printsDiffer_iff.trans (exists_firstRecords_iff (f := fun o => o.definition.fingerprint))

/-- **No two canonical texts of records have one fingerprint.** -/
def NoCollision (records : List ElementRecord) : Prop :=
  ∀ a ∈ records, ∀ b ∈ records,
    a.object.definition.fingerprint = b.object.definition.fingerprint →
      a.object.definition.canonicalText = b.object.definition.canonicalText

/-- Records that are incompatible differ in their canonical texts, and conversely. -/
theorem incompatible_structural_iff (h : NoCollision records) :
    incompatible .structural records = true ↔ ∃ a ∈ records, ∃ b ∈ records,
      a.object.definition.canonicalText ≠ b.object.definition.canonicalText := by
  rw [incompatible, Bool.or_eq_true, kindsDiffer_iff, printsDiffer_distinctBodies_iff]
  constructor
  · rintro (⟨a, ha, b, hb, hne⟩ | ⟨a, ha, b, hb, hne⟩)
    · exact ⟨a, ha, b, hb, fun e => hne (Definition.kind_eq_of_canonicalText_eq e)⟩
    · exact ⟨a, ha, b, hb, fun e => hne (congrArg Fingerprint.ofText e)⟩
  · rintro ⟨a, ha, b, hb, hne⟩
    exact Or.inr ⟨a, ha, b, hb, fun e => hne (h a ha b hb e)⟩

/-- **Records clash and are incompatible when two of them differ in file and in canonical text.** -/
theorem clash_and_incompatible_iff (h : NoCollision records) :
    (clash records && incompatible .structural records) = true ↔
      ∃ a ∈ records, ∃ b ∈ records, a.sourceFile ≠ b.sourceFile ∧
        a.object.definition.canonicalText ≠ b.object.definition.canonicalText := by
  rw [Bool.and_eq_true, clash_iff, incompatible_structural_iff h]
  constructor
  · rintro ⟨⟨a, ha, b, hb, hfile, -⟩, htext⟩
    exact exists_differ_in_both ⟨a, ha, b, hb, hfile⟩ htext
  · rintro ⟨a, ha, b, hb, hfile, htext⟩
    refine ⟨⟨a, ha, b, hb, hfile, fun e => htext ?_⟩, a, ha, b, hb, htext⟩
    rw [e]

end Records

/-! ## A pass over the keys -/

/-- Whether a conflict is about an element. -/
def Conflict.names (c : Conflict) (key : ElementKey) : Bool :=
  c.namespaceName == key.namespaceName && c.elementName == some key.name

/-- **A pass reports exactly the keys with a property**, each once and in their order, with all
files that have a record of the key. -/
structure ReportsExactly (r : Registry) (type : ConflictType) (property : ElementKey → Prop)
    (pass : List Conflict) : Prop where
  /-- A key with the property is reported once. -/
  once : ∀ key, property key → ∃ c, pass.filter (fun c => c.names key) = [c]
  /-- A key without it is not reported. -/
  only : ∀ key, ¬property key → pass.filter (fun c => c.names key) = []
  /-- Every report is of the type and about a key with the property; its files ascend and are those
  of the records of the key. -/
  sound : ∀ c ∈ pass, c.type = type ∧ ∃ key, property key ∧ c.names key = true ∧
    c.files.Pairwise (· < ·) ∧ ∀ file, file ∈ c.files ↔ ∃ a ∈ r.records key, a.sourceFile = file
  /-- The keys of the reports ascend. -/
  ascending : pass.Pairwise fun c d => ∀ k l, c.names k = true → d.names l = true →
    compare k l = .lt

section Pass

variable {type : ConflictType} {test : List ElementRecord → Bool}
  {make : ElementKey → List ElementRecord → Conflict}

/-- What a pass makes of one key with its records: a conflict if the records meet its condition. -/
def conflictOf? (test : List ElementRecord → Bool)
    (make : ElementKey → List ElementRecord → Conflict) (e : ElementKey × List ElementRecord) :
    Option Conflict :=
  if test e.2 then some (make e.1 e.2) else none

theorem conflictOf?_eq_some {e : ElementKey × List ElementRecord} {c : Conflict} :
    conflictOf? test make e = some c ↔ test e.2 = true ∧ make e.1 e.2 = c := by
  simp [conflictOf?]

/-- What a pass reports of a key is decided by the records of the key. -/
theorem filter_names_filterMap (hempty : test [] = false)
    (hmake : ∀ key records k, (make key records).names k = true ↔ k = key)
    {entries : List (ElementKey × List ElementRecord)}
    (h : entries.Pairwise fun a b => compare a.1 b.1 = .lt) (key : ElementKey) :
    (entries.filterMap (conflictOf? test make)).filter (fun c => c.names key) =
      (conflictOf? test make (key, Index.lookup key entries)).toList := by
  induction entries with
  | nil => simp [Index.lookup, conflictOf?, hempty]
  | cons e rest ih =>
    have ih := ih h.of_cons
    rw [Index.lookup]
    by_cases hkey : key = e.1
    · -- no later entry has the key
      have hnone : Index.lookup key rest = [] := Index.lookup_eq_nil fun e' he' =>
        hkey ▸ List.rel_of_pairwise_cons h he'
      have hrest : (rest.filterMap (conflictOf? test make)).filter (fun c => c.names key) = [] := by
        rw [ih, hnone, conflictOf?, hempty]
        rfl
      subst hkey
      rw [if_pos Std.ReflCmp.compare_self]
      cases hc : conflictOf? test make e with
      | none =>
        rw [List.filterMap_cons_none hc, hrest]
        rfl
      | some c =>
        obtain ⟨-, rfl⟩ := conflictOf?_eq_some.mp hc
        have hnames := (hmake e.1 e.2 e.1).mpr rfl
        rw [List.filterMap_cons_some hc,
          List.filter_cons_of_pos (p := fun c => Conflict.names c e.1) hnames, hrest]
        rfl
    · rw [if_neg (fun hc => hkey (Std.LawfulEqCmp.compare_eq_iff_eq.mp hc)), ← ih]
      cases hc : conflictOf? test make e with
      | none => rw [List.filterMap_cons_none hc]
      | some c =>
        obtain ⟨-, rfl⟩ := conflictOf?_eq_some.mp hc
        have hnames : ¬(make e.1 e.2).names key = true := fun hn =>
          hkey ((hmake e.1 e.2 key).mp hn)
        rw [List.filterMap_cons_some hc,
          List.filter_cons_of_neg (p := fun c => Conflict.names c key) hnames]

/-- **A pass that makes a conflict of each key whose records meet a condition** reports exactly the
keys with the property that the condition decides. -/
theorem reportsExactly_filterMap {r : Registry} {property : ElementKey → Prop}
    (test : List ElementRecord → Bool) (make : ElementKey → List ElementRecord → Conflict)
    (hempty : test [] = false) (htest : ∀ key, test (r.records key) = true ↔ property key)
    (hmake : ∀ key records k, (make key records).names k = true ↔ k = key)
    (htype : ∀ key records, (make key records).type = type)
    (hfiles : ∀ key records, (make key records).files = filesOf records) :
    ReportsExactly r type property (r.elements.toList.filterMap (conflictOf? test make)) := by
  have hfilter := filter_names_filterMap hempty hmake r.elements.ascending
  exact {
    once := by
      intro key hkey
      have hsome : conflictOf? test make (key, r.records key) =
          some (make key (r.records key)) := if_pos ((htest key).mpr hkey)
      exact ⟨_, (hfilter key).trans (congrArg Option.toList hsome)⟩
    only := by
      intro key hkey
      have hnone : conflictOf? test make (key, r.records key) = none :=
        if_neg fun h => hkey ((htest key).mp h)
      exact (hfilter key).trans (congrArg Option.toList hnone)
    sound := by
      intro c hc
      obtain ⟨e, he, hmk⟩ := List.mem_filterMap.mp hc
      obtain ⟨hpass, rfl⟩ := conflictOf?_eq_some.mp hmk
      have hrecords : r.records e.1 = e.2 := Index.get_of_mem he
      refine ⟨htype e.1 e.2, e.1, (htest e.1).mp (hrecords ▸ hpass), (hmake e.1 e.2 e.1).mpr rfl,
        ?_, fun file => ?_⟩
      · rw [hfiles]
        exact Ascending.pairwise_lt_ofList _
      · rw [hfiles, filesOf, Ascending.mem_ofList, List.mem_map, hrecords]
    ascending := by
      refine List.Pairwise.filterMap _ ?_ r.elements.ascending
      intro e e' hlt c hc d hd k l hk hl
      obtain ⟨-, rfl⟩ := conflictOf?_eq_some.mp hc
      obtain ⟨-, rfl⟩ := conflictOf?_eq_some.mp hd
      rw [(hmake e.1 e.2 k).mp hk, (hmake e'.1 e'.2 l).mp hl]
      exact hlt }

end Pass

/-! ## The passes over definitions -/

namespace Registry

/-- **An element is redefined across files**: two records of it come from different files and hold
different objects. -/
def Redefined (r : Registry) (key : ElementKey) : Prop :=
  ∃ a ∈ r.records key, ∃ b ∈ r.records key, a.sourceFile ≠ b.sourceFile ∧ a.object ≠ b.object

/-- **An element is defined differently across files**: two records of it come from different files
and have different canonical texts. -/
def DefinedApart (r : Registry) (key : ElementKey) : Prop :=
  ∃ a ∈ r.records key, ∃ b ∈ r.records key, a.sourceFile ≠ b.sourceFile ∧
    a.object.definition.canonicalText ≠ b.object.definition.canonicalText

end Registry

/-- A conflict is about the element that it was made for. -/
theorem names_iff {c : Conflict} {key k : ElementKey}
    (hnamespace : c.namespaceName = key.namespaceName) (hname : c.elementName = some key.name) :
    c.names k = true ↔ k = key := by
  rw [Conflict.names, hnamespace, hname, Bool.and_eq_true, beq_iff_eq, beq_iff_eq,
    Option.some.injEq]
  constructor
  · rintro ⟨hn, hm⟩
    cases k
    cases key
    cases hn
    cases hm
    rfl
  · rintro rfl
    exact ⟨rfl, rfl⟩

theorem reportsExactly_duplicateElements (r : Registry) :
    ReportsExactly r .duplicateElement r.Redefined (duplicateElements r) :=
  reportsExactly_filterMap clash
    (fun key records => .duplicateElement key.namespaceName key.name (filesOf records))
    rfl (fun _ => clash_iff) (fun _ _ _ => names_iff rfl rfl) (fun _ _ => rfl) (fun _ _ => rfl)

/-- The conflict of incompatible definitions, as a pass makes it. -/
def incompatibilityOf (key : ElementKey) (records : List ElementRecord) : Conflict :=
  .incompatibleDefinition key.namespaceName key.name (filesOf records)
    (incompatibilityDetails (distinctBodies records) (kindsDiffer records))

theorem reportsExactly_conservative (r : Registry) :
    ReportsExactly r .incompatibleDefinition r.Redefined
      (incompatibleDefinitions .conservative r) := by
  have htest : ∀ records,
      (clash records && incompatible .conservative records) = clash records := by
    intro records
    rw [incompatible, Bool.or_true, Bool.and_true]
  refine reportsExactly_filterMap
    (fun records => clash records && incompatible .conservative records)
    incompatibilityOf rfl (fun key => ?_) (fun _ _ _ => names_iff rfl rfl) (fun _ _ => rfl)
    (fun _ _ => rfl)
  rw [htest]
  exact clash_iff

theorem reportsExactly_structural (r : Registry) (h : ∀ key, NoCollision (r.records key)) :
    ReportsExactly r .incompatibleDefinition r.DefinedApart
      (incompatibleDefinitions .structural r) :=
  reportsExactly_filterMap (fun records => clash records && incompatible .structural records)
    incompatibilityOf rfl (fun key => clash_and_incompatible_iff (h key))
    (fun _ _ _ => names_iff rfl rfl) (fun _ _ => rfl) (fun _ _ => rfl)

/-- **What the passes over definitions report** of the registry after a sequence of calls. -/
structure DefinitionPasses (calls : List (String × Block)) : Prop where
  /-- The records of a key are those that the calls filed under it. -/
  records : ∀ key, (Registry.ofCalls calls).records key = calls.flatMap (Registry.filed key)
  /-- Duplicate elements are the elements that are redefined across files. -/
  duplicates : ReportsExactly (Registry.ofCalls calls) .duplicateElement
    (Registry.ofCalls calls).Redefined (duplicateElements (Registry.ofCalls calls))
  /-- By structure, incompatible elements are those that are defined differently across files. -/
  structural : ReportsExactly (Registry.ofCalls calls) .incompatibleDefinition
    (Registry.ofCalls calls).DefinedApart
    (incompatibleDefinitions .structural (Registry.ofCalls calls))
  /-- With caution, incompatible elements are the duplicate elements. -/
  conservative : ReportsExactly (Registry.ofCalls calls) .incompatibleDefinition
    (Registry.ofCalls calls).Redefined
    (incompatibleDefinitions .conservative (Registry.ofCalls calls))

/-- **The passes over definitions report the redefinitions across files**, whatever the calls, as
long as no two canonical texts of one element have one fingerprint. -/
theorem definitionPasses_ofCalls (calls : List (String × Block))
    (h : ∀ key, NoCollision ((Registry.ofCalls calls).records key)) : DefinitionPasses calls where
  records := Registry.records_ofCalls calls
  duplicates := reportsExactly_duplicateElements _
  structural := reportsExactly_structural _ h
  conservative := reportsExactly_conservative _

/-- A block with one enumeration, whose members may be combined or not. -/
def enumeration (isFlags : Bool) : SchemaBlock :=
  { SchemaBlock.bare (some "N") none with enumTypes := [⟨"E", none, isFlags, [], []⟩] }

/-- Two files that define one enumeration differently. -/
def differing : List (String × Block) :=
  [("a.xml", Block.fresh 0 (enumeration false)), ("b.xml", Block.fresh 1 (enumeration true))]

/-- **The fingerprints of the two definitions differ**, so the passes report them. -/
theorem definitionPasses_differing :
    (∀ key, NoCollision ((Registry.ofCalls differing).records key)) ∧
      DefinitionPasses differing := by
  have hprints : (Definition.enumType ⟨"E", none, false, [], []⟩).fingerprint ≠
      (Definition.enumType ⟨"E", none, true, [], []⟩).fingerprint := by decide +kernel
  have hdefined : ∀ {key a}, a ∈ (Registry.ofCalls differing).records key →
      a.object.definition = .enumType ⟨"E", none, false, [], []⟩ ∨
        a.object.definition = .enumType ⟨"E", none, true, [], []⟩ := by
    intro key a ha
    obtain ⟨call, hcall, -, hobject⟩ := Registry.exists_call_of_mem_records ha
    have hobjects : ∀ call ∈ differing, ∀ o ∈ call.2.objects,
        o.definition = .enumType ⟨"E", none, false, [], []⟩ ∨
          o.definition = .enumType ⟨"E", none, true, [], []⟩ := by decide
    exact hobjects call hcall a.object hobject
  have hnone : ∀ key, NoCollision ((Registry.ofCalls differing).records key) := by
    intro key a ha b hb he
    rcases hdefined ha with hda | hda <;> rcases hdefined hb with hdb | hdb
    · rw [hda, hdb]
    · rw [hda, hdb] at he
      exact absurd he hprints
    · rw [hda, hdb] at he
      exact absurd he.symm hprints
    · rw [hda, hdb]
  exact ⟨hnone, definitionPasses_ofCalls differing hnone⟩

end CsdlAudit
