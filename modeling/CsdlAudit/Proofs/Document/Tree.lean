import CsdlAudit.Proofs.Document.Needed

/-!
# What a tree of elements declares

The elements of a document form a forest, and what they declare can be read off it by recursion: a
block is made of the types, operations and so on that stand directly in its element, a type of the
properties that stand directly in its own, and likewise down to the annotations. An element in
another place is not asked for, so it is left out together with what stands in it. There are three
exceptions. A block inside of anything but an annotation is a block. A part of a key belongs to the
nearest structured type around it. And an annotation takes all that stands in it as its value.

Nothing here mentions a stack or the order in which tags come. `Spells` says which events write a
forest.
-/

namespace CsdlAudit.Document

/-- **Elements with text between them**: the first one with its content, then the rest. -/
inductive Forest where
  /-- Nothing. -/
  | nil
  /-- Text, its references expanded. -/
  | text (s : String) (rest : Forest)
  /-- An element with its content. -/
  | element (name : String) (as : Attributes) (content rest : Forest)

/-- **The events write the forest**: their attributes can be read and their texts be expanded. -/
inductive Spells : Forest → List Markup.Event → Prop where
  /-- No event writes nothing. -/
  | nil : Spells .nil []
  /-- A text. -/
  | text {raw s : String} {rest : Forest} {events : List Markup.Event} :
    Markup.expand raw = .ok s → Spells rest events → Spells (.text s rest) (.text raw :: events)
  /-- An element with its content between two tags. -/
  | element {tag : Markup.Tag} {name : String} {as : Attributes} {content rest : Forest}
    {inner events : List Markup.Event} :
    tag.localName = name → Attributes.ofTag tag = .ok as → Spells content inner →
      Spells rest events →
      Spells (.element name as content rest) (.opening tag :: inner ++ .closing :: events)
  /-- An element without content, in one tag. -/
  | empty {tag : Markup.Tag} {name : String} {as : Attributes} {rest : Forest}
    {events : List Markup.Event} :
    tag.localName = name → Attributes.ofTag tag = .ok as → Spells rest events →
      Spells (.element name as .nil rest) (.empty tag :: events)

namespace Forest

/-- **Every element has the attributes that it needs**, except in annotations. A block needs none to
be read. -/
def Complete : Forest → Prop
  | .nil => True
  | .text _ rest => rest.Complete
  | .element name as content rest =>
    (name ≠ "Schema" → ∀ needed ∈ (neededBy? name).getD [], (as.get? needed).isSome = true) ∧
      (name ≠ "Annotation" → content.Complete) ∧ rest.Complete

/-- Whether a forest is complete can be computed. -/
instance decidableComplete : (f : Forest) → Decidable f.Complete
  | .nil => isTrue trivial
  | .text _ rest => decidableComplete rest
  | .element _ _ content rest =>
    have := decidableComplete content
    have := decidableComplete rest
    inferInstanceAs (Decidable (_ ∧ _))

/-- The elements of a name that stand directly in the forest, each as `read` has it. -/
def named {α : Type} (wanted : String) (read : Attributes → Forest → α) : Forest → List α
  | .nil => []
  | .text _ rest => rest.named wanted read
  | .element name as content rest =>
    (if name = wanted then [read as content] else []) ++ rest.named wanted read

/-! ## Annotations -/

/-- **All that stands in an annotation**, at any depth: texts, and elements in one word. -/
def pieces : Forest → List String
  | .nil => []
  | .text s rest => s :: rest.pieces
  | .element name as content rest => as.rendered name :: (content.pieces ++ rest.pieces)

/-- The annotations. -/
def annotations : Forest → List Annotation :=
  named "Annotation" fun as content =>
    finished ⟨as.value "Term", as.get? "Qualifier", expressionNames.findSome? as.get?⟩
      content.pieces

/-- The annotations from outside. -/
def targets : Forest → List AnnotationTarget :=
  named "Annotations" fun as content => ⟨as.value "Target", content.annotations⟩

/-! ## Types -/

/-- **The parts of a key**, at any depth but not in another structured type or in an annotation. -/
def keyPaths : Forest → List String
  | .nil => []
  | .text _ rest => rest.keyPaths
  | .element name as content rest =>
    (if name = "PropertyRef" then [as.value "Name"] else []) ++
      (if name = "EntityType" ∨ name = "ComplexType" ∨ name = "Annotation" then []
        else content.keyPaths) ++
      rest.keyPaths

/-- The properties. -/
def properties : Forest → List Property :=
  named "Property" fun as content =>
    ⟨as.value "Name", as.value "Type", as.flagUnlessFalse "Nullable", as.get? "MaxLength",
      as.get? "DefaultValue", content.annotations⟩

/-- The navigation properties. -/
def navigationProperties : Forest → List NavigationProperty :=
  named "NavigationProperty" fun as content =>
    ⟨as.value "Name", as.value "Type", as.get? "Partner", as.flag "ContainsTarget",
      content.annotations⟩

/-- A structured type. -/
def structuredType (as : Attributes) (content : Forest) : StructuredType :=
  ⟨as.value "Name", as.get? "BaseType", as.flag "Abstract", as.flag "OpenType", content.keyPaths,
    content.properties, content.navigationProperties, content.annotations⟩

/-- The members of an enumeration type. -/
def members : Forest → List EnumMember :=
  named "Member" fun as _ => ⟨as.value "Name", as.get? "Value"⟩

/-- The enumeration types. -/
def enumTypes : Forest → List EnumType :=
  named "EnumType" fun as content =>
    ⟨as.value "Name", as.get? "UnderlyingType", as.flag "IsFlags", content.members,
      content.annotations⟩

/-- The type definitions. -/
def typeDefinitions : Forest → List TypeDefinition :=
  named "TypeDefinition" fun as content =>
    ⟨as.value "Name", as.value "UnderlyingType", content.annotations⟩

/-! ## Operations and terms -/

/-- The parameters. -/
def parameters : Forest → List Parameter :=
  named "Parameter" fun as _ =>
    ⟨as.value "Name", as.value "Type", as.flagUnlessFalse "Nullable"⟩

/-- The return types. -/
def returnTypes : Forest → List ReturnType :=
  named "ReturnType" fun as _ => ⟨as.value "Type", as.flagUnlessFalse "Nullable"⟩

/-- An operation. The last return type counts. -/
def operation (as : Attributes) (content : Forest) : Operation :=
  ⟨as.value "Name", as.flag "IsBound", as.flag "IsComposable", content.parameters,
    content.returnTypes.getLast?, content.annotations⟩

/-- The terms. -/
def terms : Forest → List Term :=
  named "Term" fun as content =>
    ⟨as.value "Name", as.value "Type", as.get? "BaseTerm",
      ((as.get? "AppliesTo").map Text.words).getD [], content.annotations⟩

/-! ## Containers -/

/-- The bindings of an entity set. -/
def bindings : Forest → List NavigationBinding :=
  named "NavigationPropertyBinding" fun as _ => ⟨as.value "Path", as.value "Target"⟩

/-- The entity sets. -/
def entitySets : Forest → List EntitySet :=
  named "EntitySet" fun as content =>
    ⟨as.value "Name", as.value "EntityType", content.bindings, content.annotations⟩

/-- The singletons. -/
def singletons : Forest → List Singleton :=
  named "Singleton" fun as content => ⟨as.value "Name", as.value "Type", content.annotations⟩

/-- The action imports. -/
def actionImports : Forest → List ActionImport :=
  named "ActionImport" fun as content =>
    ⟨as.value "Name", as.value "Action", as.get? "EntitySet", content.annotations⟩

/-- The function imports. -/
def functionImports : Forest → List FunctionImport :=
  named "FunctionImport" fun as content =>
    ⟨as.value "Name", as.value "Function", as.get? "EntitySet",
      as.flag "IncludeInServiceDocument", content.annotations⟩

/-- The containers. -/
def containers : Forest → List EntityContainer :=
  named "EntityContainer" fun as content =>
    ⟨as.value "Name", as.get? "Extends", content.entitySets, content.singletons,
      content.actionImports, content.functionImports, content.annotations⟩

/-! ## Blocks -/

/-- **A block.** The last container counts. -/
def block (as : Attributes) (content : Forest) : SchemaBlock :=
  ⟨as.get? "Namespace", as.get? "Alias", content.named "EntityType" structuredType,
    content.named "ComplexType" structuredType, content.enumTypes, content.typeDefinitions,
    content.named "Action" operation, content.named "Function" operation, content.terms,
    content.containers.getLast?, content.targets⟩

/-- **The blocks of a forest**, at any depth but not in annotations; a block stands behind those
inside of it. -/
def blocks : Forest → List SchemaBlock
  | .nil => []
  | .text _ rest => rest.blocks
  | .element name as content rest =>
    (if name = "Annotation" then [] else content.blocks) ++
      (if name = "Schema" then [block as content] else []) ++ rest.blocks

end Forest

end CsdlAudit.Document
