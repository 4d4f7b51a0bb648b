import CsdlAudit.Schema.Basic

/-!
# Writing schema blocks down in Lean

Short ways to write types and operations: start from a name and add parts one after the other.
-/

namespace CsdlAudit

/-- The annotation of a term with a value. -/
def Annotation.of (term value : String) : Annotation := ⟨term, none, some value⟩

/-- The annotation with a qualifier. -/
def Annotation.qualified (a : Annotation) (qualifier : String) : Annotation :=
  { a with qualifier := some qualifier }

namespace StructuredType

/-- The type with a name and nothing else. -/
def named (name : String) : StructuredType := ⟨name, none, false, false, [], [], [], []⟩

/-- The type with one more property, which may be null. -/
def withProperty (t : StructuredType) (name typeName : String) : StructuredType :=
  { t with properties := t.properties ++ [⟨name, typeName, true, none, none, []⟩] }

/-- The type with one more navigation property. -/
def withNavigation (t : StructuredType) (name typeName : String) : StructuredType :=
  { t with
    navigationProperties := t.navigationProperties ++ [⟨name, typeName, none, false, []⟩] }

/-- The type with one more part of its key. -/
def withKey (t : StructuredType) (path : String) : StructuredType :=
  { t with key := t.key ++ [path] }

/-- The type with a base. -/
def withBase (t : StructuredType) (base : String) : StructuredType :=
  { t with baseType := some base }

/-- The type with one more annotation. -/
def withAnnotation (t : StructuredType) (a : Annotation) : StructuredType :=
  { t with annotations := t.annotations ++ [a] }

end StructuredType

namespace Operation

/-- The operation with a name and nothing else. -/
def named (name : String) : Operation := ⟨name, false, false, [], none, []⟩

/-- The operation with one more parameter, which may be null. -/
def withParameter (o : Operation) (name typeName : String) : Operation :=
  { o with parameters := o.parameters ++ [⟨name, typeName, true⟩] }

/-- The operation with a return type, which may be null. -/
def returning (o : Operation) (typeName : String) : Operation :=
  { o with returnType := some ⟨typeName, true⟩ }

end Operation

end CsdlAudit
