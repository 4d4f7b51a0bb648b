import CsdlAudit.Ascending
import CsdlAudit.Registry.Block
import CsdlAudit.Registry.Key

/-!
# The registry

The registry files what the blocks of many files declare: definitions by their keys, annotations by
the places that they apply to, and the blocks themselves and their files by their namespaces.
`Registry.ingest` adds one block to each of these; a block without a namespace is skipped.
-/

namespace CsdlAudit

/-- **One file's definition of an element.** -/
structure ElementRecord where
  /-- The element. -/
  key : ElementKey
  /-- The definition. -/
  object : DefinitionObject
  /-- The file. -/
  sourceFile : String
deriving DecidableEq, Repr

/-- The kind of the defined element. -/
def ElementRecord.kind (r : ElementRecord) : ElementKind := r.object.definition.kind

/-- What is known of one block as a whole. -/
structure BlockInfo where
  /-- Its namespace. -/
  namespaceName : String
  /-- The short name of its namespace. -/
  aliasName : Option String
  /-- Its file. -/
  sourceFile : String
  /-- Whether it carries a container or at least one type. -/
  complete : Bool
deriving DecidableEq, Repr

/-- One file's annotation of a place. -/
structure AnnotationRecord where
  /-- What the annotation says. -/
  value : String
  /-- The file. -/
  sourceFile : String
deriving DecidableEq, Repr

/-- An annotation with its place. -/
abbrev PlacedAnnotation := String × String × Annotation

/-- **What became of a block.** -/
inductive IngestOutcome where
  /-- So many definitions and annotations were filed. -/
  | filed (elements annotations : Nat)
  /-- It has no namespace. -/
  | skipped
deriving DecidableEq, Repr

/-- **What the blocks of many files declare.** -/
structure Registry where
  /-- The definitions of each element. -/
  elements : Index ElementKey ElementRecord
  /-- The files of each namespace, a set. -/
  files : Index String String
  /-- The blocks of each namespace. -/
  infos : Index String BlockInfo
  /-- The annotations of each place. -/
  annotations : Index AnnotationKey AnnotationRecord
  /-- The blocks with their files, in the order in which they came. -/
  ingested : List (String × Block)

/-! ## Where annotations apply -/

/-- What follows a name and a dot in a target. -/
def afterOwnName? (name target : String) : Option String :=
  Text.afterStart? (name ++ ".") target

/-- **The namespace and the path of an annotation target**, as a block names it. The block's own
namespace or its short name may stand in front; of any other target the namespace ends at the last
dot before a slash. -/
def splitTarget (target namespaceName : String) (aliasName : Option String) : String × String :=
  match afterOwnName? namespaceName target with
  | some rest => (namespaceName, rest)
  | none =>
    match aliasName.bind (fun a => afterOwnName? a target) with
    | some rest => (namespaceName, rest)
    | none =>
      let head := Text.beforeFirst '/' target
      match Text.splitLast '.' head with
      | some (front, last) =>
        (front, last ++ String.ofList (target.toList.drop head.toList.length))
      | none => ("", target)

/-- The annotations of a definition and of its members. -/
def Definition.placedAnnotations (d : Definition) (namespaceName : String) :
    List PlacedAnnotation :=
  (d.annotations.map fun a => (namespaceName, d.elementName, a)) ++
    d.memberAnnotations.flatMap fun m =>
      m.2.map fun a => (namespaceName, d.elementName ++ "/" ++ m.1, a)

/-- The annotations that a block applies from outside. -/
def SchemaBlock.outsideAnnotations (b : SchemaBlock) (namespaceName : String) :
    List PlacedAnnotation :=
  b.externalAnnotations.flatMap fun t =>
    let place := splitTarget t.target namespaceName b.aliasName
    t.annotations.map fun a => (place.1, place.2, a)

/-- **All annotations of a block**, with the places that they apply to. -/
def SchemaBlock.placedAnnotations (b : SchemaBlock) (namespaceName : String) :
    List PlacedAnnotation :=
  (b.definitions.flatMap fun d => d.placedAnnotations namespaceName) ++
    b.outsideAnnotations namespaceName

namespace Registry

/-- The registry that holds nothing. -/
def empty : Registry := ⟨.empty, .empty, .empty, .empty, []⟩

/-- Files one annotation. -/
def annotate (file : String) (index : Index AnnotationKey AnnotationRecord)
    (p : PlacedAnnotation) : Index AnnotationKey AnnotationRecord :=
  index.add ⟨p.1, p.2.1, p.2.2.termKey⟩ ⟨p.2.2.valueText, file⟩

/-- Files one definition. -/
def addElement (namespaceName file : String) (index : Index ElementKey ElementRecord)
    (o : DefinitionObject) : Index ElementKey ElementRecord :=
  let key : ElementKey := ⟨namespaceName, o.definition.elementName⟩
  index.add key ⟨key, o, file⟩

/-- **Files all that a block declares**, unless it has no namespace. -/
def ingest (r : Registry) (file : String) (b : Block) : Registry × IngestOutcome :=
  match b.schema.ownNamespace? with
  | none => (r, .skipped)
  | some namespaceName =>
    let placed := b.schema.placedAnnotations namespaceName
    ({ elements := b.objects.foldl (addElement namespaceName file) r.elements
       files := r.files.insert namespaceName file
       infos := r.infos.add namespaceName
         ⟨namespaceName, b.schema.aliasName, file, b.schema.isComplete⟩
       annotations := placed.foldl (annotate file) r.annotations
       ingested := r.ingested ++ [(file, b)] },
      .filed b.objects.length placed.length)

/-! ## Queries -/

/-- The definitions of an element, in the order in which they came. -/
def records (r : Registry) (key : ElementKey) : List ElementRecord := r.elements.get key

/-- How many definitions there are. -/
def elementCount (r : Registry) : Nat := r.elements.size

/-- The namespaces, ascending. -/
def namespaces (r : Registry) : List String := r.files.keys

/-- The files with blocks of a namespace, ascending; `none` for an unknown namespace. -/
def filesOf? (r : Registry) (namespaceName : String) : Option (List String) :=
  if r.files.hasKey namespaceName then some (r.files.get namespaceName) else none

/-- **The files of each namespace**, both ascending. -/
def namespaceFiles (r : Registry) : List (String × List String) := r.files.toList

/-- The blocks with their files, without identities. -/
def schemas (r : Registry) : List (String × SchemaBlock) :=
  r.ingested.map fun e => (e.1, e.2.schema)

/-- Whether nothing was filed. -/
def isEmpty (r : Registry) : Bool := r.ingested.isEmpty

end Registry

end CsdlAudit
