import CsdlAudit.Proofs.Registry.Ingest
import CsdlAudit.Proofs.Text.Pieces
import CsdlAudit.Schema.Builder

/-!
# Signatures tell overloads apart

An operation is filed under its name and the types of its parameters, joined to one text. Types have
brackets of their own, so the text is read from the left: the name ends at the first bracket, and
what stands between this bracket and the last one are the types with commas between them. A name
without an opening bracket and types that are neither empty nor have a comma are told by it
(`Operation.signature_eq_iff`). The one text that two lists of types could share is the empty one,
which is why no type may be empty.

So the keys of a registry tell its definitions apart as far as they should
(`Definition.toldApart_of_plain`).
-/

namespace CsdlAudit

/-! ## Operations -/

namespace Operation

/-- The types of the parameters. -/
def typeNames (o : Operation) : List String := o.parameters.map (·.typeName)

/-- **The parts of the signature can be told**: the name ends at the first bracket, and each type at
a comma or at the end. -/
structure Plain (o : Operation) : Prop where
  /-- The name has no opening bracket. -/
  name : '(' ∉ o.name.toList
  /-- A type is not empty and has no comma. -/
  typeNames : ∀ t ∈ o.typeNames, t ≠ "" ∧ ',' ∉ t.toList

/-- Two operations are one overload. -/
structure SameOverload (o o' : Operation) : Prop where
  /-- They have one name. -/
  name : o.name = o'.name
  /-- Their parameters have the same types in the same order. -/
  typeNames : o.typeNames = o'.typeNames

theorem sameOverload_iff {o o' : Operation} :
    o.SameOverload o' ↔ o.name = o'.name ∧ o.typeNames = o'.typeNames :=
  ⟨fun h => ⟨h.name, h.typeNames⟩, fun h => ⟨h.1, h.2⟩⟩

theorem toList_signature (o : Operation) :
    o.signature.toList = o.name.toList ++ '(' :: ((Text.join "," o.typeNames).toList ++ [')']) := by
  rw [signature, String.toList_append, String.toList_append, String.toList_append,
    List.append_assoc, List.append_assoc]
  rfl

theorem bracket_mem_signature (o : Operation) : '(' ∈ o.signature.toList := by
  rw [toList_signature]
  exact List.mem_append_right _ List.mem_cons_self

/-- Types that are not empty are not joined to the empty text. -/
theorem join_ne_empty {ts : List String} (hts : ts ≠ []) (h : ∀ t ∈ ts, t ≠ "") :
    Text.join "," ts ≠ "" := by
  match ts, hts with
  | [t], _ => exact h t List.mem_cons_self
  | t :: t' :: rest, _ =>
    intro e
    -- a comma stands between the first two
    have hchars := congrArg String.toList e
    rw [Text.toList_join, List.map_cons, List.map_cons, List.intercalate_cons_cons] at hchars
    simp at hchars

/-- **Joined types are told by their commas.** -/
theorem eq_of_join_eq {ts ts' : List String} (h : ∀ t ∈ ts, t ≠ "" ∧ ',' ∉ t.toList)
    (h' : ∀ t ∈ ts', t ≠ "" ∧ ',' ∉ t.toList) (e : Text.join "," ts = Text.join "," ts') :
    ts = ts' := by
  by_cases hts : ts = []
  · by_contra hne
    have hts' : ts' ≠ [] := fun hnil => hne (hts.trans hnil.symm)
    rw [hts] at e
    exact join_ne_empty hts' (fun t ht => (h' t ht).1) e.symm
  · have hts' : ts' ≠ [] := by
      rintro rfl
      exact join_ne_empty hts (fun t ht => (h t ht).1) e
    have hcomma : ",".toList = [','] := rfl
    rw [← Text.splitAll_join hcomma hts fun t ht => (h t ht).2, e,
      Text.splitAll_join hcomma hts' fun t ht => (h' t ht).2]

/-- **A signature tells the name and the types.** -/
theorem signature_eq_iff {o o' : Operation} (h : o.Plain) (h' : o'.Plain) :
    o.signature = o'.signature ↔ o.SameOverload o' := by
  constructor
  · intro e
    have hchars := congrArg String.toList e
    rw [toList_signature, toList_signature] at hchars
    have hname := Text.front_eq_of_append_cons h.name h'.name hchars
    rw [hname, List.append_cancel_left_eq, List.cons.injEq, List.append_cancel_right_eq] at hchars
    exact ⟨String.toList_injective hname,
      eq_of_join_eq h.typeNames h'.typeNames (String.toList_injective hchars.2)⟩
  · rintro ⟨hname, htypes⟩
    rw [typeNames, typeNames] at htypes
    rw [signature, signature, hname, htypes]

end Operation

/-! ## Definitions -/

namespace Definition

/-- The operation that is defined, if any. -/
def operation? : Definition → Option Operation
  | .action o | .function o => some o
  | _ => none

/-- **What a definition is filed under can be read**: the parts of a signature can be told, and the
name of anything else has no opening bracket. -/
def Plain (d : Definition) : Prop :=
  match d.operation? with
  | some o => o.Plain
  | none => '(' ∉ d.elementName.toList

/-- **Two definitions are of one element**: of elements with one plain name, or of one overload. -/
def SameElement (d d' : Definition) : Prop :=
  match d.operation?, d'.operation? with
  | some o, some o' => o.SameOverload o'
  | none, none => d.elementName = d'.elementName
  | _, _ => False

theorem elementName_of_operation? {d : Definition} {o : Operation} (h : d.operation? = some o) :
    d.elementName = o.signature := by
  cases d <;> simp only [operation?, Option.some.injEq, reduceCtorEq] at h <;> exact h ▸ rfl

/-- **What definitions are filed under tells their elements.** -/
theorem elementName_eq_iff {d d' : Definition} (h : d.Plain) (h' : d'.Plain) :
    d.elementName = d'.elementName ↔ d.SameElement d' := by
  unfold SameElement
  unfold Plain at h h'
  cases ho : d.operation? with
  | some o =>
    rw [ho] at h
    cases ho' : d'.operation? with
    | some o' =>
      rw [ho'] at h'
      rw [elementName_of_operation? ho, elementName_of_operation? ho']
      exact Operation.signature_eq_iff h h'
    | none =>
      rw [ho'] at h'
      rw [elementName_of_operation? ho, iff_false]
      exact fun e => h' (e ▸ o.bracket_mem_signature)
  | none =>
    rw [ho] at h
    cases ho' : d'.operation? with
    | some o' =>
      rw [elementName_of_operation? ho', iff_false]
      exact fun e => h (e ▸ o'.bracket_mem_signature)
    | none => exact Iff.rfl

end Definition

/-- A definition stands in a registry under what it is filed under. -/
theorem Registry.elementName_of_mem_records {calls : List (String × Block)} {key : ElementKey}
    {r : ElementRecord} (h : r ∈ (Registry.ofCalls calls).records key) :
    r.object.definition.elementName = key.name := by
  rw [Registry.records_ofCalls] at h
  obtain ⟨call, -, hr⟩ := List.mem_flatMap.mp h
  unfold Registry.filed at hr
  split at hr
  · exact absurd hr List.not_mem_nil
  · obtain ⟨o, ho, rfl⟩ := List.mem_map.mp hr
    have hkey : key = ⟨_, o.definition.elementName⟩ := of_decide_eq_true (List.mem_filter.mp ho).2
    exact (congrArg ElementKey.name hkey).symm

namespace Definition

/-- **Two definitions are told apart** by what they are filed under. -/
structure ToldApart (d d' : Definition) : Prop where
  /-- Two operations have one signature just when they have one name and the same types. -/
  signature_eq_iff : ∀ o o', d.operation? = some o → d'.operation? = some o' →
    (o.signature = o'.signature ↔ o.name = o'.name ∧ o.typeNames = o'.typeNames)
  /-- The signature of an operation is the name of no other element. -/
  signature_ne : ∀ o, d.operation? = some o → d'.operation? = none → o.signature ≠ d'.elementName
  /-- In every registry, records of the two in one namespace have one key just when they are of
  elements with one plain name, or of operations with one name and the same types. -/
  key_eq_iff : ∀ calls key key', key.namespaceName = key'.namespaceName →
    ∀ r ∈ (Registry.ofCalls calls).records key, r.object.definition = d →
    ∀ r' ∈ (Registry.ofCalls calls).records key', r'.object.definition = d' →
      (key = key' ↔
        d.operation? = none ∧ d'.operation? = none ∧ d.elementName = d'.elementName ∨
          ∃ o o', d.operation? = some o ∧ d'.operation? = some o' ∧
            o.name = o'.name ∧ o.typeNames = o'.typeNames)

/-- Two definitions are of one element, in words. -/
theorem sameElement_iff {d d' : Definition} : d.SameElement d' ↔
    d.operation? = none ∧ d'.operation? = none ∧ d.elementName = d'.elementName ∨
      ∃ o o', d.operation? = some o ∧ d'.operation? = some o' ∧
        o.name = o'.name ∧ o.typeNames = o'.typeNames := by
  unfold SameElement
  cases d.operation? <;> cases d'.operation? <;> simp [Operation.sameOverload_iff]

/-- **Definitions whose names and types can be told are told apart.** -/
theorem toldApart_of_plain {d d' : Definition} (h : d.Plain) (h' : d'.Plain) :
    ToldApart d d' where
  signature_eq_iff := by
    intro o o' ho ho'
    rw [← elementName_of_operation? ho, ← elementName_of_operation? ho', elementName_eq_iff h h',
      ← Operation.sameOverload_iff, SameElement, ho, ho']
  signature_ne := by
    intro o ho ho' e
    rw [← elementName_of_operation? ho, elementName_eq_iff h h', SameElement, ho, ho'] at e
    exact e
  key_eq_iff := by
    rintro calls ⟨namespaceName, name⟩ ⟨_, name'⟩ rfl r hr rfl r' hr' rfl
    have hname := Registry.elementName_of_mem_records hr
    have hname' := Registry.elementName_of_mem_records hr'
    rw [← sameElement_iff, ← elementName_eq_iff h h', hname, hname', ElementKey.mk.injEq]
    exact and_iff_right rfl

/-- Three functions: two overloads that differ in their second types, and one without parameters
whose name goes on where the other one ends. -/
def overloads : List Operation :=
  [((Operation.named "Find").withParameter "at" "Collection(N.A)").withParameter "by" "Edm.String",
    ((Operation.named "Find").withParameter "at" "Collection(N.A)").withParameter "by" "Edm.Int32",
    Operation.named "FindAll"]

/-- **Overloads have keys of their own**, also with types that have brackets. -/
theorem toldApart_overloads :
    (∀ o ∈ overloads, ∀ o' ∈ overloads, ToldApart (.function o) (.function o')) ∧
      overloads.map Operation.signature =
        ["Find(Collection(N.A),Edm.String)", "Find(Collection(N.A),Edm.Int32)", "FindAll()"] := by
  have hplain : ∀ o ∈ overloads, o.Plain := by
    intro o ho
    refine ⟨?_, ?_⟩ <;> revert o <;> decide
  exact ⟨fun o ho o' ho' => toldApart_of_plain (hplain o ho) (hplain o' ho'), by decide⟩

end Definition

end CsdlAudit
