/-!
# Schema blocks

A CSDL document declares its model in schema blocks. A `SchemaBlock` holds what one block declares:
types, operations, terms, at most one entity container, and annotations that it applies to elements
from outside.

Names are kept as they are written. A name that refers to another element is a text here; the graph
of references gives it a meaning.
-/

namespace CsdlAudit

/-! ## Annotations -/

/-- **A term applied to an element.** -/
structure Annotation where
  /-- The term. -/
  term : String
  /-- Tells several applications of one term apart. -/
  qualifier : Option String
  /-- The value expression in written form. -/
  value : Option String
deriving DecidableEq, Repr, Inhabited

namespace Annotation

/-- The term, with the qualifier behind `#` if there is one. -/
def termKey (a : Annotation) : String :=
  match a.qualifier with
  | some q => a.term ++ "#" ++ q
  | none => a.term

/-- What the annotation says: its value, or the term itself if it has none. -/
def valueText (a : Annotation) : String := a.value.getD a.term

end Annotation

/-- Annotations applied to an element from outside of it. -/
structure AnnotationTarget where
  /-- The element, as the block names it. -/
  target : String
  /-- What is applied to it. -/
  annotations : List Annotation
deriving DecidableEq, Repr, Inhabited

/-! ## Types -/

/-- A property of a structured type. -/
structure Property where
  /-- Its name. -/
  name : String
  /-- The type reference. -/
  typeName : String
  /-- Whether it may be null. -/
  nullable : Bool
  /-- The length limit, as written. -/
  maxLength : Option String
  /-- The default value, as written. -/
  defaultValue : Option String
  /-- Its annotations. -/
  annotations : List Annotation
deriving DecidableEq, Repr, Inhabited

/-- A navigation property of a structured type. -/
structure NavigationProperty where
  /-- Its name. -/
  name : String
  /-- The type reference. -/
  typeName : String
  /-- The navigation property that leads back. -/
  partner : Option String
  /-- Whether the target belongs to the source. -/
  containsTarget : Bool
  /-- Its annotations. -/
  annotations : List Annotation
deriving DecidableEq, Repr, Inhabited

/-- **An entity type or a complex type.** -/
structure StructuredType where
  /-- Its name. -/
  name : String
  /-- The type that it derives from. -/
  baseType : Option String
  /-- Whether it is abstract. -/
  isAbstract : Bool
  /-- Whether instances may carry undeclared properties. -/
  isOpen : Bool
  /-- The paths of the key properties. -/
  key : List String
  /-- Its properties. -/
  properties : List Property
  /-- Its navigation properties. -/
  navigationProperties : List NavigationProperty
  /-- Its annotations. -/
  annotations : List Annotation
deriving DecidableEq, Repr, Inhabited

/-- A member of an enumeration type. -/
structure EnumMember where
  /-- Its name. -/
  name : String
  /-- Its value, as written. -/
  value : Option String
deriving DecidableEq, Repr, Inhabited

/-- **An enumeration type.** -/
structure EnumType where
  /-- Its name. -/
  name : String
  /-- The integer type of its values. -/
  underlyingType : Option String
  /-- Whether members may be combined. -/
  isFlags : Bool
  /-- Its members. -/
  members : List EnumMember
  /-- Its annotations. -/
  annotations : List Annotation
deriving DecidableEq, Repr, Inhabited

/-- **A named restriction of a primitive type.** -/
structure TypeDefinition where
  /-- Its name. -/
  name : String
  /-- The restricted type. -/
  underlyingType : String
  /-- Its annotations. -/
  annotations : List Annotation
deriving DecidableEq, Repr, Inhabited

/-! ## Operations and terms -/

/-- A parameter of an operation. -/
structure Parameter where
  /-- Its name. -/
  name : String
  /-- The type reference. -/
  typeName : String
  /-- Whether it may be null. -/
  nullable : Bool
deriving DecidableEq, Repr, Inhabited

/-- What an operation returns. -/
structure ReturnType where
  /-- The type reference. -/
  typeName : String
  /-- Whether it may be null. -/
  nullable : Bool
deriving DecidableEq, Repr, Inhabited

/-- **An action or a function.** Several operations may share one name and differ in their
parameters. -/
structure Operation where
  /-- Its name. -/
  name : String
  /-- Whether the first parameter is the instance it is called on. -/
  isBound : Bool
  /-- Whether its result may be composed further. -/
  isComposable : Bool
  /-- Its parameters. -/
  parameters : List Parameter
  /-- What it returns. -/
  returnType : Option ReturnType
  /-- Its annotations. -/
  annotations : List Annotation
deriving DecidableEq, Repr, Inhabited

/-- **An annotation term.** -/
structure Term where
  /-- Its name. -/
  name : String
  /-- The type reference. -/
  typeName : String
  /-- The term that it refines. -/
  baseTerm : Option String
  /-- The kinds of element that it applies to. -/
  appliesTo : List String
  /-- Its annotations. -/
  annotations : List Annotation
deriving DecidableEq, Repr, Inhabited

/-! ## Containers -/

/-- Where a navigation property of an entity set leads. -/
structure NavigationBinding where
  /-- The path of the navigation property. -/
  path : String
  /-- The target. -/
  target : String
deriving DecidableEq, Repr, Inhabited

/-- A set of entities. -/
structure EntitySet where
  /-- Its name. -/
  name : String
  /-- The type of its members. -/
  entityType : String
  /-- Where its navigation properties lead. -/
  navigationBindings : List NavigationBinding
  /-- Its annotations. -/
  annotations : List Annotation
deriving DecidableEq, Repr, Inhabited

/-- A single entity. -/
structure Singleton where
  /-- Its name. -/
  name : String
  /-- Its type. -/
  typeName : String
  /-- Its annotations. -/
  annotations : List Annotation
deriving DecidableEq, Repr, Inhabited

/-- An action that the container offers. -/
structure ActionImport where
  /-- Its name. -/
  name : String
  /-- The action. -/
  action : String
  /-- The entity set of the result. -/
  entitySet : Option String
  /-- Its annotations. -/
  annotations : List Annotation
deriving DecidableEq, Repr, Inhabited

/-- A function that the container offers. -/
structure FunctionImport where
  /-- Its name. -/
  name : String
  /-- The function. -/
  function : String
  /-- The entity set of the result. -/
  entitySet : Option String
  /-- Whether the service document lists it. -/
  includeInServiceDocument : Bool
  /-- Its annotations. -/
  annotations : List Annotation
deriving DecidableEq, Repr, Inhabited

/-- **What a service offers**: its entity sets, singletons and imports. -/
structure EntityContainer where
  /-- Its name. -/
  name : String
  /-- The container that it extends. -/
  baseContainer : Option String
  /-- Its entity sets. -/
  entitySets : List EntitySet
  /-- Its singletons. -/
  singletons : List Singleton
  /-- Its action imports. -/
  actionImports : List ActionImport
  /-- Its function imports. -/
  functionImports : List FunctionImport
  /-- Its annotations. -/
  annotations : List Annotation
deriving DecidableEq, Repr, Inhabited

/-! ## Blocks -/

/-- **Everything that one schema block declares.** -/
structure SchemaBlock where
  /-- The namespace of its elements. -/
  namespaceName : Option String
  /-- A short name for the namespace. -/
  aliasName : Option String
  /-- Its entity types. -/
  entityTypes : List StructuredType
  /-- Its complex types. -/
  complexTypes : List StructuredType
  /-- Its enumeration types. -/
  enumTypes : List EnumType
  /-- Its type definitions. -/
  typeDefinitions : List TypeDefinition
  /-- Its actions. -/
  actions : List Operation
  /-- Its functions. -/
  functions : List Operation
  /-- Its terms. -/
  terms : List Term
  /-- Its entity container. -/
  entityContainer : Option EntityContainer
  /-- The annotations that it applies from outside. -/
  externalAnnotations : List AnnotationTarget
deriving DecidableEq, Repr, Inhabited

namespace SchemaBlock

/-- The block that declares nothing. -/
def bare (namespaceName aliasName : Option String) : SchemaBlock :=
  ⟨namespaceName, aliasName, [], [], [], [], [], [], [], none, []⟩

/-- Whether the block carries a container or at least one type. -/
def isComplete (b : SchemaBlock) : Bool :=
  b.entityContainer.isSome || !b.entityTypes.isEmpty || !b.complexTypes.isEmpty ||
    !b.enumTypes.isEmpty || !b.typeDefinitions.isEmpty

/-- The namespace, if it has at least one character. A block without one declares nothing that
others could refer to. -/
def ownNamespace? (b : SchemaBlock) : Option String :=
  match b.namespaceName with
  | some n => if n = "" then none else some n
  | none => none

end SchemaBlock

end CsdlAudit
