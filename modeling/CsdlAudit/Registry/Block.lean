import CsdlAudit.Natural
import CsdlAudit.Schema.Definition

/-!
# Definition objects

Two files may define one element by the same text, and yet each of them wrote it; or they may share
one definition that was written once. A `DefinitionObject` is a definition with a handle, and two
objects are the same when both agree. A `Block` is a schema block with a handle for each of its
definitions.

Blocks come from a reader, which may give out a definition once more that it gave before, with
another block or for another file. A `ReadBlock` tells which of its definitions these are by numbers
of the reader's own. All others are new, and get handles that nothing else has (`ReadBlock.block`).
-/

namespace CsdlAudit

/-- **What tells objects apart that say the same.** -/
inductive Handle where
  /-- The handle of a definition that was new when it was read. -/
  | own (n : Nat)
  /-- The handle of a definition that its reader knows by a number. -/
  | given (n : Nat)
deriving DecidableEq, Repr

/-- **A definition with its identity.** -/
structure DefinitionObject where
  /-- Tells objects apart that say the same. -/
  handle : Handle
  /-- What it defines. -/
  definition : Definition
deriving DecidableEq, Repr

/-- **A schema block whose definitions are objects.** -/
structure Block where
  /-- The block. -/
  schema : SchemaBlock
  /-- The handles of its definitions, in their order. -/
  handles : List Handle
  /-- Each definition has one handle. -/
  aligned : handles.length = schema.definitions.length

namespace Block

/-- The definitions of a block as objects. -/
def objects (b : Block) : List DefinitionObject :=
  List.zipWith DefinitionObject.mk b.handles b.schema.definitions

theorem objects_definitions (b : Block) : b.objects.map (·.definition) = b.schema.definitions :=
  List.ext_getElem (by simp [objects, b.aligned]) (by simp [objects])

theorem objects_handles (b : Block) : b.objects.map (·.handle) = b.handles :=
  List.ext_getElem (by simp [objects, b.aligned]) (by simp [objects])

/-- The block with given handles, if there is one for each definition. -/
def of? (schema : SchemaBlock) (handles : List Handle) : Option Block :=
  if h : handles.length = schema.definitions.length then some ⟨schema, handles, h⟩ else none

end Block

/-! ## Blocks that are read -/

/-- **A block as a reader gives it.** -/
structure ReadBlock where
  /-- The block. -/
  schema : SchemaBlock
  /-- The numbers by which the reader knows its definitions, by their places. One without a number
  is new. -/
  known : List (Option Nat)
deriving DecidableEq

namespace ReadBlock

/-- The handle of the definition at a place, if new handles start at `next`. -/
def handleAt (b : ReadBlock) (next place : Nat) : Handle :=
  match b.known[place]? with
  | some (some n) => .given n
  | _ => .own (next + place)

/-- **The block with its objects**, if new handles start at `next`. -/
def block (b : ReadBlock) (next : Nat) : Block :=
  ⟨b.schema, (List.range b.schema.definitions.length).map (b.handleAt next), by simp⟩

@[simp] theorem schema_block (b : ReadBlock) (next : Nat) : (b.block next).schema = b.schema := rfl

end ReadBlock

/-- The block with new definitions only. -/
def Block.fresh (next : Nat) (schema : SchemaBlock) : Block := (ReadBlock.mk schema []).block next

/-! ## Sharing objects -/

/-- The parts of a block that list definitions. -/
inductive DefinitionList where
  /-- The entity types. -/
  | entityTypes
  /-- The complex types. -/
  | complexTypes
  /-- The enumeration types. -/
  | enumTypes
  /-- The type definitions. -/
  | typeDefinitions
  /-- The actions. -/
  | actions
  /-- The functions. -/
  | functions
  /-- The terms. -/
  | terms
  /-- The entity container with what it offers. -/
  | entityContainer
deriving DecidableEq, Repr

namespace DefinitionList

/-- How many definitions the list has. -/
def size (b : SchemaBlock) : DefinitionList → Nat
  | .entityTypes => b.entityTypes.length
  | .complexTypes => b.complexTypes.length
  | .enumTypes => b.enumTypes.length
  | .typeDefinitions => b.typeDefinitions.length
  | .actions => b.actions.length
  | .functions => b.functions.length
  | .terms => b.terms.length
  | .entityContainer => b.definitions.length - b.ownDefinitions.length

/-- The lists that stand before a list. -/
def before : DefinitionList → List DefinitionList
  | .entityTypes => []
  | .complexTypes => [.entityTypes]
  | .enumTypes => [.entityTypes, .complexTypes]
  | .typeDefinitions => [.entityTypes, .complexTypes, .enumTypes]
  | .actions => [.entityTypes, .complexTypes, .enumTypes, .typeDefinitions]
  | .functions => [.entityTypes, .complexTypes, .enumTypes, .typeDefinitions, .actions]
  | .terms => [.entityTypes, .complexTypes, .enumTypes, .typeDefinitions, .actions, .functions]
  | .entityContainer =>
    [.entityTypes, .complexTypes, .enumTypes, .typeDefinitions, .actions, .functions, .terms]

/-- How many definitions of the block stand before the list. -/
def offset (b : SchemaBlock) (l : DefinitionList) : Nat := total (l.before.map (size b))

end DefinitionList

/-- The block with one more definition behind those of its kind; a container takes the place of
the one that is there. What a container offers is not added on its own. -/
def SchemaBlock.addDefinition (b : SchemaBlock) : Definition → SchemaBlock
  | .entityType t => { b with entityTypes := b.entityTypes ++ [t] }
  | .complexType t => { b with complexTypes := b.complexTypes ++ [t] }
  | .enumType t => { b with enumTypes := b.enumTypes ++ [t] }
  | .typeDefinition t => { b with typeDefinitions := b.typeDefinitions ++ [t] }
  | .action o => { b with actions := b.actions ++ [o] }
  | .function o => { b with functions := b.functions ++ [o] }
  | .term t => { b with terms := b.terms ++ [t] }
  | .entityContainer c => { b with entityContainer := some c }
  | _ => b

/-- **The block shares a definition of another block**: the object at `index` of a list becomes the
last one of the same list here, or the container of the other block becomes the container here with
all that it offers. `none` if there is no such object. -/
def Block.share? (b donor : Block) (l : DefinitionList) (index : Nat) : Option Block :=
  match l with
  | .entityContainer =>
    match donor.schema.entityContainer with
    | none => none
    | some c =>
      Block.of? (b.schema.addDefinition (.entityContainer c))
        (b.handles.take (l.offset b.schema) ++ donor.handles.drop (l.offset donor.schema))
  | _ =>
    if index < l.size donor.schema then
      (donor.objects[l.offset donor.schema + index]?).bind fun o =>
        let at' := l.offset b.schema + l.size b.schema
        Block.of? (b.schema.addDefinition o.definition)
          (b.handles.take at' ++ o.handle :: b.handles.drop at')
    else none

end CsdlAudit
