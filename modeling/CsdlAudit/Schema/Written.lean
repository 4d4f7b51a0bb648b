import CsdlAudit.Schema.Definition
import CsdlAudit.Fingerprint

/-!
# The written form of schema blocks

Every part of a schema block has a JSON form, read and written field by field. A part that is
absent, and a list of annotations that is empty, leave their field out; reading takes a missing
field for an absent part.

The canonical text of a definition is the pretty form of its kind and its body. Two definitions say
the same when their canonical texts agree, and the fingerprint stands for that text.
-/

namespace CsdlAudit

open Json

/-- A text field. -/
def textField (name : String) (s : String) : String × Json := (name, .text s)

/-- A field with a truth value. -/
def boolField (name : String) (b : Bool) : String × Json := (name, .bool b)

/-- A list field that is written also when it is empty. -/
def itemsField {α : Type} (name : String) (write : α → Json) (items : List α) : String × Json :=
  (name, .list (items.map write))

/-- A text that may be absent. -/
def textField? (name : String) (s : Option String) : List (String × Json) :=
  optionalField name .text s

/-! ## Annotations -/

/-- The JSON form of an annotation. -/
def Annotation.toJson (a : Annotation) : Json :=
  .object (textField "term" a.term :: (textField? "qualifier" a.qualifier ++
    textField? "value" a.value))

/-- Reads an annotation. -/
def Annotation.ofJson? (v : Json) : Option Annotation := do
  let fs ← v.fields?
  return ⟨← required text? "term" fs, ← optional text? "qualifier" fs,
    ← optional text? "value" fs⟩

/-- The field of an element's annotations. -/
def annotationsField (items : List Annotation) : List (String × Json) :=
  listField "annotations" Annotation.toJson items

/-- Reads the annotations of an element. -/
def readAnnotations (fs : List (String × Json)) : Option (List Annotation) :=
  defaulted [] (list? Annotation.ofJson?) "annotations" fs

/-- The JSON form of annotations applied from outside. -/
def AnnotationTarget.toJson (t : AnnotationTarget) : Json :=
  .object [textField "target" t.target, itemsField "annotations" Annotation.toJson t.annotations]

/-- Reads annotations applied from outside. -/
def AnnotationTarget.ofJson? (v : Json) : Option AnnotationTarget := do
  let fs ← v.fields?
  return ⟨← required text? "target" fs, ← required (list? Annotation.ofJson?) "annotations" fs⟩

/-! ## Types -/

/-- The JSON form of a property. -/
def Property.toJson (p : Property) : Json :=
  .object ([textField "name" p.name, textField "type_name" p.typeName,
    boolField "nullable" p.nullable] ++ textField? "max_length" p.maxLength ++
    textField? "default_value" p.defaultValue ++ annotationsField p.annotations)

/-- Reads a property. -/
def Property.ofJson? (v : Json) : Option Property := do
  let fs ← v.fields?
  return ⟨← required text? "name" fs, ← required text? "type_name" fs,
    ← defaulted true bool? "nullable" fs, ← optional text? "max_length" fs,
    ← optional text? "default_value" fs, ← readAnnotations fs⟩

/-- The JSON form of a navigation property. -/
def NavigationProperty.toJson (n : NavigationProperty) : Json :=
  .object ([textField "name" n.name, textField "type_name" n.typeName] ++
    textField? "partner" n.partner ++ [boolField "contains_target" n.containsTarget] ++
    annotationsField n.annotations)

/-- Reads a navigation property. -/
def NavigationProperty.ofJson? (v : Json) : Option NavigationProperty := do
  let fs ← v.fields?
  return ⟨← required text? "name" fs, ← required text? "type_name" fs,
    ← optional text? "partner" fs, ← defaulted false bool? "contains_target" fs,
    ← readAnnotations fs⟩

/-- The JSON form of a structured type. -/
def StructuredType.toJson (t : StructuredType) : Json :=
  .object (textField "name" t.name :: (textField? "base_type" t.baseType ++
    [boolField "is_abstract" t.isAbstract, boolField "open_type" t.isOpen] ++
    listField "key" .text t.key ++
    [itemsField "properties" Property.toJson t.properties,
      itemsField "navigation_properties" NavigationProperty.toJson t.navigationProperties] ++
    annotationsField t.annotations))

/-- Reads a structured type. -/
def StructuredType.ofJson? (v : Json) : Option StructuredType := do
  let fs ← v.fields?
  return ⟨← required text? "name" fs, ← optional text? "base_type" fs,
    ← defaulted false bool? "is_abstract" fs, ← defaulted false bool? "open_type" fs,
    ← defaulted [] (list? text?) "key" fs,
    ← defaulted [] (list? Property.ofJson?) "properties" fs,
    ← defaulted [] (list? NavigationProperty.ofJson?) "navigation_properties" fs,
    ← readAnnotations fs⟩

/-- The JSON form of an enumeration member. -/
def EnumMember.toJson (m : EnumMember) : Json :=
  .object (textField "name" m.name :: textField? "value" m.value)

/-- Reads an enumeration member. -/
def EnumMember.ofJson? (v : Json) : Option EnumMember := do
  let fs ← v.fields?
  return ⟨← required text? "name" fs, ← optional text? "value" fs⟩

/-- The JSON form of an enumeration type. -/
def EnumType.toJson (t : EnumType) : Json :=
  .object (textField "name" t.name :: (textField? "underlying_type" t.underlyingType ++
    [boolField "is_flags" t.isFlags, itemsField "members" EnumMember.toJson t.members] ++
    annotationsField t.annotations))

/-- Reads an enumeration type. -/
def EnumType.ofJson? (v : Json) : Option EnumType := do
  let fs ← v.fields?
  return ⟨← required text? "name" fs, ← optional text? "underlying_type" fs,
    ← defaulted false bool? "is_flags" fs,
    ← defaulted [] (list? EnumMember.ofJson?) "members" fs, ← readAnnotations fs⟩

/-- The JSON form of a type definition. -/
def TypeDefinition.toJson (t : TypeDefinition) : Json :=
  .object ([textField "name" t.name, textField "underlying_type" t.underlyingType] ++
    annotationsField t.annotations)

/-- Reads a type definition. -/
def TypeDefinition.ofJson? (v : Json) : Option TypeDefinition := do
  let fs ← v.fields?
  return ⟨← required text? "name" fs, ← required text? "underlying_type" fs,
    ← readAnnotations fs⟩

/-! ## Operations and terms -/

/-- The JSON form of a parameter. -/
def Parameter.toJson (p : Parameter) : Json :=
  .object [textField "name" p.name, textField "type_name" p.typeName,
    boolField "nullable" p.nullable]

/-- Reads a parameter. -/
def Parameter.ofJson? (v : Json) : Option Parameter := do
  let fs ← v.fields?
  return ⟨← required text? "name" fs, ← required text? "type_name" fs,
    ← defaulted true bool? "nullable" fs⟩

/-- The JSON form of a return type. -/
def ReturnType.toJson (r : ReturnType) : Json :=
  .object [textField "type_name" r.typeName, boolField "nullable" r.nullable]

/-- Reads a return type. -/
def ReturnType.ofJson? (v : Json) : Option ReturnType := do
  let fs ← v.fields?
  return ⟨← required text? "type_name" fs, ← defaulted true bool? "nullable" fs⟩

/-- The JSON form of an operation. -/
def Operation.toJson (o : Operation) : Json :=
  .object ([textField "name" o.name, boolField "is_bound" o.isBound,
    boolField "is_composable" o.isComposable,
    itemsField "parameters" Parameter.toJson o.parameters] ++
    optionalField "return_type" ReturnType.toJson o.returnType ++ annotationsField o.annotations)

/-- Reads an operation. -/
def Operation.ofJson? (v : Json) : Option Operation := do
  let fs ← v.fields?
  return ⟨← required text? "name" fs, ← defaulted false bool? "is_bound" fs,
    ← defaulted false bool? "is_composable" fs,
    ← defaulted [] (list? Parameter.ofJson?) "parameters" fs,
    ← optional ReturnType.ofJson? "return_type" fs, ← readAnnotations fs⟩

/-- The JSON form of a term. -/
def Term.toJson (t : Term) : Json :=
  .object ([textField "name" t.name, textField "type_name" t.typeName] ++
    textField? "base_term" t.baseTerm ++ listField "applies_to" .text t.appliesTo ++
    annotationsField t.annotations)

/-- Reads a term. -/
def Term.ofJson? (v : Json) : Option Term := do
  let fs ← v.fields?
  return ⟨← required text? "name" fs, ← required text? "type_name" fs,
    ← optional text? "base_term" fs, ← defaulted [] (list? text?) "applies_to" fs,
    ← readAnnotations fs⟩

/-! ## Containers -/

/-- The JSON form of a navigation binding. -/
def NavigationBinding.toJson (b : NavigationBinding) : Json :=
  .object [textField "path" b.path, textField "target" b.target]

/-- Reads a navigation binding. -/
def NavigationBinding.ofJson? (v : Json) : Option NavigationBinding := do
  let fs ← v.fields?
  return ⟨← required text? "path" fs, ← required text? "target" fs⟩

/-- The JSON form of an entity set. -/
def EntitySet.toJson (s : EntitySet) : Json :=
  .object ([textField "name" s.name, textField "entity_type" s.entityType] ++
    listField "navigation_bindings" NavigationBinding.toJson s.navigationBindings ++
    annotationsField s.annotations)

/-- Reads an entity set. -/
def EntitySet.ofJson? (v : Json) : Option EntitySet := do
  let fs ← v.fields?
  return ⟨← required text? "name" fs, ← required text? "entity_type" fs,
    ← defaulted [] (list? NavigationBinding.ofJson?) "navigation_bindings" fs,
    ← readAnnotations fs⟩

/-- The JSON form of a singleton. -/
def Singleton.toJson (s : Singleton) : Json :=
  .object ([textField "name" s.name, textField "type_name" s.typeName] ++
    annotationsField s.annotations)

/-- Reads a singleton. -/
def Singleton.ofJson? (v : Json) : Option Singleton := do
  let fs ← v.fields?
  return ⟨← required text? "name" fs, ← required text? "type_name" fs, ← readAnnotations fs⟩

/-- The JSON form of an action import. -/
def ActionImport.toJson (i : ActionImport) : Json :=
  .object ([textField "name" i.name, textField "action" i.action] ++
    textField? "entity_set" i.entitySet ++ annotationsField i.annotations)

/-- Reads an action import. -/
def ActionImport.ofJson? (v : Json) : Option ActionImport := do
  let fs ← v.fields?
  return ⟨← required text? "name" fs, ← required text? "action" fs,
    ← optional text? "entity_set" fs, ← readAnnotations fs⟩

/-- The JSON form of a function import. -/
def FunctionImport.toJson (i : FunctionImport) : Json :=
  .object ([textField "name" i.name, textField "function" i.function] ++
    textField? "entity_set" i.entitySet ++
    [boolField "include_in_service_document" i.includeInServiceDocument] ++
    annotationsField i.annotations)

/-- Reads a function import. -/
def FunctionImport.ofJson? (v : Json) : Option FunctionImport := do
  let fs ← v.fields?
  return ⟨← required text? "name" fs, ← required text? "function" fs,
    ← optional text? "entity_set" fs,
    ← defaulted false bool? "include_in_service_document" fs, ← readAnnotations fs⟩

/-- The JSON form of an entity container. -/
def EntityContainer.toJson (c : EntityContainer) : Json :=
  .object (textField "name" c.name :: (textField? "extends" c.baseContainer ++
    [itemsField "entity_sets" EntitySet.toJson c.entitySets,
      itemsField "singletons" Singleton.toJson c.singletons,
      itemsField "action_imports" ActionImport.toJson c.actionImports,
      itemsField "function_imports" FunctionImport.toJson c.functionImports] ++
    annotationsField c.annotations))

/-- Reads an entity container. -/
def EntityContainer.ofJson? (v : Json) : Option EntityContainer := do
  let fs ← v.fields?
  return ⟨← required text? "name" fs, ← optional text? "extends" fs,
    ← defaulted [] (list? EntitySet.ofJson?) "entity_sets" fs,
    ← defaulted [] (list? Singleton.ofJson?) "singletons" fs,
    ← defaulted [] (list? ActionImport.ofJson?) "action_imports" fs,
    ← defaulted [] (list? FunctionImport.ofJson?) "function_imports" fs,
    ← readAnnotations fs⟩

/-! ## Blocks -/

/-- **The JSON form of a schema block.** -/
def SchemaBlock.toJson (b : SchemaBlock) : Json :=
  .object (("namespace", ofText? b.namespaceName) :: (textField? "alias" b.aliasName ++
    [itemsField "entity_types" StructuredType.toJson b.entityTypes,
      itemsField "complex_types" StructuredType.toJson b.complexTypes,
      itemsField "enum_types" EnumType.toJson b.enumTypes,
      itemsField "type_definitions" TypeDefinition.toJson b.typeDefinitions,
      itemsField "actions" Operation.toJson b.actions,
      itemsField "functions" Operation.toJson b.functions,
      itemsField "terms" Term.toJson b.terms] ++
    optionalField "entity_container" EntityContainer.toJson b.entityContainer ++
    listField "external_annotations" AnnotationTarget.toJson b.externalAnnotations))

/-- **Reads a schema block.** -/
def SchemaBlock.ofJson? (v : Json) : Option SchemaBlock := do
  let fs ← v.fields?
  return ⟨← optional text? "namespace" fs, ← optional text? "alias" fs,
    ← defaulted [] (list? StructuredType.ofJson?) "entity_types" fs,
    ← defaulted [] (list? StructuredType.ofJson?) "complex_types" fs,
    ← defaulted [] (list? EnumType.ofJson?) "enum_types" fs,
    ← defaulted [] (list? TypeDefinition.ofJson?) "type_definitions" fs,
    ← defaulted [] (list? Operation.ofJson?) "actions" fs,
    ← defaulted [] (list? Operation.ofJson?) "functions" fs,
    ← defaulted [] (list? Term.ofJson?) "terms" fs,
    ← optional EntityContainer.ofJson? "entity_container" fs,
    ← defaulted [] (list? AnnotationTarget.ofJson?) "external_annotations" fs⟩

/-! ## Definitions -/

namespace Definition

/-- The JSON form of the element without its kind. -/
def body : Definition → Json
  | .entityType t | .complexType t => t.toJson
  | .enumType t => t.toJson
  | .typeDefinition t => t.toJson
  | .entityContainer c => c.toJson
  | .entitySet s => s.toJson
  | .singleton s => s.toJson
  | .actionImport i => i.toJson
  | .functionImport i => i.toJson
  | .action o | .function o => o.toJson
  | .term t => t.toJson

/-- The JSON form of a definition: its kind and its body. -/
def toJson (d : Definition) : Json :=
  .object [textField "kind" d.kind.name, ("definition", d.body)]

/-- **The canonical text**: one field or item a line. -/
def canonicalText (d : Definition) : String := d.toJson.pretty

/-- **The fingerprint of the canonical text.** -/
def fingerprint (d : Definition) : Fingerprint := .ofText d.canonicalText

end Definition

end CsdlAudit
