import CsdlAudit.Proofs.Json
import CsdlAudit.Schema.Written

/-!
# The written form is read back

Each part of a schema block is read back from its JSON form as it was written: `ofJson?_toJson`, for
the kinds of part one after the other, those that stand in others first. Each field is found under
its name, whatever fields stand around it; a field that was left out reads as what it was left out
for. So different parts have different JSON forms. None of these forms has a number in it
(`wordy_toJson`), so each of them can be told from its pretty text.

What this comes to for a whole block is `SchemaBlock.givenBack`.
-/

namespace CsdlAudit

open Json

namespace Json

/-! ## Finding fields -/

section Fields

variable {α : Type} {name : String} {fs gs : List (String × Json)}

@[simp] theorem field?_nil : field? name [] = none := rfl

@[simp] theorem field?_cons (key : String) (v : Json) :
    field? name ((key, v) :: fs) = if key = name then some v else field? name fs := by
  by_cases h : key = name <;> simp [field?, h]

@[simp] theorem field?_append : field? name (fs ++ gs) = (field? name fs).or (field? name gs) := by
  simp only [field?, List.find?_append, Option.map_or]

@[simp] theorem field?_optionalField (key : String) (write : α → Json) (o : Option α) :
    field? name (optionalField key write o) = if key = name then o.map write else none := by
  cases o <;> simp [optionalField]

/-- The value of a list field, if the field is not left out. -/
def listed (write : α → Json) : List α → Option Json
  | [] => none
  | items => some (.list (items.map write))

@[simp] theorem field?_listField (key : String) (write : α → Json) (items : List α) :
    field? name (listField key write items) = if key = name then listed write items else none := by
  cases items <;> simp [listField, listed]

end Fields

/-! ## Reading what was found -/

section Values

variable {α : Type} {read : Json → Option α} {write : α → Json}

/-- What a field that may be absent or `null` is read as, given its value. -/
def optionalValue (read : Json → Option α) : Option Json → Option (Option α)
  | none => some none
  | some .null => some none
  | some v => (read v).map some

/-- What a field is read as that may be absent and then has a value of its own. -/
def defaultedValue (absent : α) (read : Json → Option α) : Option Json → Option α
  | none => some absent
  | some v => read v

@[simp] theorem required_eq_bind (name : String) (fs : List (String × Json)) :
    required read name fs = (field? name fs).bind read := rfl

@[simp] theorem optional_eq_optionalValue (name : String) (fs : List (String × Json)) :
    optional read name fs = optionalValue read (field? name fs) := by
  unfold optional optionalValue
  rfl

@[simp] theorem defaulted_eq_defaultedValue (absent : α) (name : String)
    (fs : List (String × Json)) :
    defaulted absent read name fs = defaultedValue absent read (field? name fs) := by
  unfold defaulted defaultedValue
  rfl

/-- **An optional part is read back**, if `null` is not the form of one. -/
theorem optionalValue_map (hread : ∀ a, read (write a) = some a) (hnull : read .null = none)
    (o : Option α) : optionalValue read (o.map write) = some o := by
  cases o with
  | none => rfl
  | some a =>
    have hne : write a ≠ .null := fun h => by
      have ha := hread a
      rw [h, hnull] at ha
      cases ha
    rw [Option.map_some, optionalValue, hread, Option.map_some]
    exact hne

/-- **Items are read back**, if each of them is. -/
theorem list?_map (hread : ∀ a, read (write a) = some a) (items : List α) :
    list? read (.list (items.map write)) = some items := by
  rw [list?]
  induction items with
  | nil => rfl
  | cons a items ih => simp [List.mapM_cons, hread, ih]

theorem defaultedValue_listed (hread : ∀ a, read (write a) = some a) (items : List α) :
    defaultedValue [] (list? read) (listed write items) = some items := by
  cases items with
  | nil => rfl
  | cons a items => exact list?_map hread (a :: items)

@[simp] theorem defaultedValue_some (absent : α) (v : Json) :
    defaultedValue absent read (some v) = read v := rfl

@[simp] theorem text?_text (s : String) : text? (.text s) = some s := rfl

@[simp] theorem bool?_bool (b : Bool) : bool? (.bool b) = some b := rfl

@[simp] theorem fields?_object (fs : List (String × Json)) : (Json.object fs).fields? = some fs :=
  rfl

@[simp] theorem optionalValue_text (s : Option String) :
    optionalValue text? (s.map .text) = some s :=
  optionalValue_map text?_text rfl s

/-- A text or `null` is read back. -/
@[simp] theorem optionalValue_ofText? (s : Option String) :
    optionalValue text? (some (ofText? s)) = some s := by
  cases s <;> rfl

@[simp] theorem defaultedValue_texts (ss : List String) :
    defaultedValue [] (list? text?) (listed .text ss) = some ss :=
  defaultedValue_listed text?_text ss

end Values

end Json

@[simp] theorem textField_eq (name s : String) : textField name s = (name, .text s) := rfl

@[simp] theorem boolField_eq (name : String) (b : Bool) : boolField name b = (name, .bool b) := rfl

@[simp] theorem itemsField_eq {α : Type} (name : String) (write : α → Json) (items : List α) :
    itemsField name write items = (name, .list (items.map write)) := rfl

@[simp] theorem textField?_eq (name : String) (s : Option String) :
    textField? name s = optionalField name .text s := rfl

/-! ## Reading back -/

theorem Annotation.ofJson?_toJson (a : Annotation) : ofJson? a.toJson = some a := by
  simp [toJson, ofJson?]

@[simp] theorem readAnnotations_eq (fs : List (String × Json)) : readAnnotations fs =
    defaultedValue [] (list? Annotation.ofJson?) (field? "annotations" fs) :=
  defaulted_eq_defaultedValue ..

@[simp] theorem defaultedValue_annotations (as : List Annotation) :
    defaultedValue [] (list? Annotation.ofJson?) (listed Annotation.toJson as) = some as :=
  defaultedValue_listed Annotation.ofJson?_toJson as

theorem Property.ofJson?_toJson (p : Property) : ofJson? p.toJson = some p := by
  simp [toJson, ofJson?, annotationsField]

theorem NavigationProperty.ofJson?_toJson (n : NavigationProperty) :
    ofJson? n.toJson = some n := by
  simp [toJson, ofJson?, annotationsField]

theorem StructuredType.ofJson?_toJson (t : StructuredType) : ofJson? t.toJson = some t := by
  simp [toJson, ofJson?, annotationsField, list?_map Property.ofJson?_toJson,
    list?_map NavigationProperty.ofJson?_toJson]

theorem EnumMember.ofJson?_toJson (m : EnumMember) : ofJson? m.toJson = some m := by
  simp [toJson, ofJson?]

theorem EnumType.ofJson?_toJson (t : EnumType) : ofJson? t.toJson = some t := by
  simp [toJson, ofJson?, annotationsField, list?_map EnumMember.ofJson?_toJson]

theorem TypeDefinition.ofJson?_toJson (t : TypeDefinition) : ofJson? t.toJson = some t := by
  simp [toJson, ofJson?, annotationsField]

theorem Parameter.ofJson?_toJson (p : Parameter) : ofJson? p.toJson = some p := by
  simp [toJson, ofJson?]

theorem ReturnType.ofJson?_toJson (r : ReturnType) : ofJson? r.toJson = some r := by
  simp [toJson, ofJson?]

theorem Operation.ofJson?_toJson (o : Operation) : ofJson? o.toJson = some o := by
  simp [toJson, ofJson?, annotationsField, list?_map Parameter.ofJson?_toJson,
    optionalValue_map ReturnType.ofJson?_toJson rfl]

theorem Term.ofJson?_toJson (t : Term) : ofJson? t.toJson = some t := by
  simp [toJson, ofJson?, annotationsField]

theorem NavigationBinding.ofJson?_toJson (b : NavigationBinding) : ofJson? b.toJson = some b := by
  simp [toJson, ofJson?]

theorem EntitySet.ofJson?_toJson (s : EntitySet) : ofJson? s.toJson = some s := by
  simp [toJson, ofJson?, annotationsField,
    defaultedValue_listed NavigationBinding.ofJson?_toJson]

theorem Singleton.ofJson?_toJson (s : Singleton) : ofJson? s.toJson = some s := by
  simp [toJson, ofJson?, annotationsField]

theorem ActionImport.ofJson?_toJson (i : ActionImport) : ofJson? i.toJson = some i := by
  simp [toJson, ofJson?, annotationsField]

theorem FunctionImport.ofJson?_toJson (i : FunctionImport) : ofJson? i.toJson = some i := by
  simp [toJson, ofJson?, annotationsField]

theorem EntityContainer.ofJson?_toJson (c : EntityContainer) : ofJson? c.toJson = some c := by
  simp [toJson, ofJson?, annotationsField, list?_map EntitySet.ofJson?_toJson,
    list?_map Singleton.ofJson?_toJson, list?_map ActionImport.ofJson?_toJson,
    list?_map FunctionImport.ofJson?_toJson]

theorem AnnotationTarget.ofJson?_toJson (t : AnnotationTarget) : ofJson? t.toJson = some t := by
  simp [toJson, ofJson?, list?_map Annotation.ofJson?_toJson]

theorem SchemaBlock.ofJson?_toJson (b : SchemaBlock) : ofJson? b.toJson = some b := by
  simp [toJson, ofJson?, list?_map StructuredType.ofJson?_toJson,
    list?_map EnumType.ofJson?_toJson, list?_map TypeDefinition.ofJson?_toJson,
    list?_map Operation.ofJson?_toJson, list?_map Term.ofJson?_toJson,
    optionalValue_map EntityContainer.ofJson?_toJson rfl,
    defaultedValue_listed AnnotationTarget.ofJson?_toJson]

/-! ## Forms without numbers -/

namespace Json

/-- No field has a number in its value. -/
def WordyFields (fs : List (String × Json)) : Prop := ∀ f ∈ fs, f.2.Wordy

section Wordy

variable {α : Type} {write : α → Json} {name : String} {fs gs : List (String × Json)}

@[simp] theorem wordy_text (s : String) : (Json.text s).Wordy := .text s

@[simp] theorem wordy_bool (b : Bool) : (Json.bool b).Wordy := .bool b

@[simp] theorem wordy_object_iff : (Json.object fs).Wordy ↔ WordyFields fs :=
  ⟨fun h => match h with | .object h => h, .object⟩

@[simp] theorem wordy_list_map (h : ∀ a, (write a).Wordy) (items : List α) :
    (Json.list (items.map write)).Wordy :=
  .list (List.forall_mem_map.mpr fun a _ => h a)

@[simp] theorem wordyFields_nil : WordyFields [] := fun _ h => absurd h List.not_mem_nil

@[simp] theorem wordyFields_cons {f : String × Json} :
    WordyFields (f :: fs) ↔ f.2.Wordy ∧ WordyFields fs :=
  List.forall_mem_cons

@[simp] theorem wordyFields_append :
    WordyFields (fs ++ gs) ↔ WordyFields fs ∧ WordyFields gs :=
  List.forall_mem_append

@[simp] theorem wordyFields_optionalField (h : ∀ a, (write a).Wordy) (o : Option α) :
    WordyFields (optionalField name write o) := by
  cases o <;> simp [optionalField, h]

@[simp] theorem wordyFields_listField (h : ∀ a, (write a).Wordy) (items : List α) :
    WordyFields (listField name write items) := by
  cases items with
  | nil => exact wordyFields_nil
  | cons a items => exact wordyFields_cons.mpr ⟨wordy_list_map h (a :: items), wordyFields_nil⟩

end Wordy

end Json

@[simp] theorem Annotation.wordy_toJson (a : Annotation) : a.toJson.Wordy := by
  simp [toJson]

@[simp] theorem Property.wordy_toJson (p : Property) : p.toJson.Wordy := by
  simp [toJson, annotationsField]

@[simp] theorem NavigationProperty.wordy_toJson (n : NavigationProperty) : n.toJson.Wordy := by
  simp [toJson, annotationsField]

theorem StructuredType.wordy_toJson (t : StructuredType) : t.toJson.Wordy := by
  simp [toJson, annotationsField]

@[simp] theorem EnumMember.wordy_toJson (m : EnumMember) : m.toJson.Wordy := by
  simp [toJson]

theorem EnumType.wordy_toJson (t : EnumType) : t.toJson.Wordy := by
  simp [toJson, annotationsField]

theorem TypeDefinition.wordy_toJson (t : TypeDefinition) : t.toJson.Wordy := by
  simp [toJson, annotationsField]

@[simp] theorem Parameter.wordy_toJson (p : Parameter) : p.toJson.Wordy := by
  simp [toJson]

@[simp] theorem ReturnType.wordy_toJson (r : ReturnType) : r.toJson.Wordy := by
  simp [toJson]

theorem Operation.wordy_toJson (o : Operation) : o.toJson.Wordy := by
  simp [toJson, annotationsField]

theorem Term.wordy_toJson (t : Term) : t.toJson.Wordy := by
  simp [toJson, annotationsField]

@[simp] theorem NavigationBinding.wordy_toJson (b : NavigationBinding) : b.toJson.Wordy := by
  simp [toJson]

@[simp] theorem EntitySet.wordy_toJson (s : EntitySet) : s.toJson.Wordy := by
  simp [toJson, annotationsField]

@[simp] theorem Singleton.wordy_toJson (s : Singleton) : s.toJson.Wordy := by
  simp [toJson, annotationsField]

@[simp] theorem ActionImport.wordy_toJson (i : ActionImport) : i.toJson.Wordy := by
  simp [toJson, annotationsField]

@[simp] theorem FunctionImport.wordy_toJson (i : FunctionImport) : i.toJson.Wordy := by
  simp [toJson, annotationsField]

theorem EntityContainer.wordy_toJson (c : EntityContainer) : c.toJson.Wordy := by
  simp [toJson, annotationsField]

theorem AnnotationTarget.wordy_toJson (t : AnnotationTarget) : t.toJson.Wordy := by
  simp [toJson]

theorem wordy_ofText? (s : Option String) : (ofText? s).Wordy := by
  cases s with
  | none => exact .null
  | some s => exact .text s

theorem SchemaBlock.wordy_toJson (b : SchemaBlock) : b.toJson.Wordy := by
  simp [toJson, wordy_ofText?, StructuredType.wordy_toJson, EnumType.wordy_toJson,
    TypeDefinition.wordy_toJson, Operation.wordy_toJson, Term.wordy_toJson,
    EntityContainer.wordy_toJson, AnnotationTarget.wordy_toJson]

/-! ## Whole blocks -/

namespace SchemaBlock

/-- **A written block is given back**, by its form and by the text of its form. -/
structure GivenBack (b : SchemaBlock) : Prop where
  /-- The form is read as the block. -/
  read : ofJson? b.toJson = some b
  /-- What is read defines the same elements in the same order, each with its fingerprint. -/
  definitions : ∀ c, ofJson? b.toJson = some c →
    c.definitions.map (fun d => (d.kind, d.elementName, d.fingerprint)) =
      b.definitions.map fun d => (d.kind, d.elementName, d.fingerprint)
  /-- What is read has the same form. -/
  again : ∀ c, ofJson? b.toJson = some c → c.toJson = b.toJson
  /-- Whatever has the text of the form is read as the block. -/
  text : ∀ v : Json, v.Wordy → v.pretty = b.toJson.pretty → ofJson? v = some b
  /-- No other block has this text. -/
  only : ∀ c : SchemaBlock, c.toJson.pretty = b.toJson.pretty → c = b

/-- **Every schema block is given back when it has been written.** -/
theorem givenBack (b : SchemaBlock) : GivenBack b := by
  have same : ∀ {c}, ofJson? b.toJson = some c → c = b := fun hc =>
    (Option.some.inj (b.ofJson?_toJson.symm.trans hc)).symm
  have htext : ∀ v : Json, v.Wordy → v.pretty = b.toJson.pretty → ofJson? v = some b := by
    intro v hv h
    rw [hv.eq_of_pretty_eq b.wordy_toJson h, b.ofJson?_toJson]
  exact {
    read := b.ofJson?_toJson
    definitions := fun c hc => by rw [same hc]
    again := fun c hc => by rw [same hc]
    text := htext
    only := fun c h => same (b.ofJson?_toJson.trans
      ((htext c.toJson c.wordy_toJson h).symm.trans c.ofJson?_toJson)) }

end SchemaBlock

end CsdlAudit
