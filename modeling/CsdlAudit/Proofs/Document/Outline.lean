import CsdlAudit.Document.Blocks
import CsdlAudit.Proofs.Document.Needed

/-!
# The outline of the open elements

What the structure of a document depends on is little of what the reader holds: for each open
element whether it is a block, and of which namespace, whether it is an annotation, or neither
(`OpenElement.outline`). An element keeps its outline as long as it is open. A tag puts one outline
in front (`outlines_push`), and a closing tag takes one off (`outlines_leave`), whatever else goes
into the elements on the way.

A block is met when its tag is read. Closing it moves it from the open elements to the complete
blocks, so that the namespaces of all blocks met stay as they are (`namespaces_leave`).
-/

namespace CsdlAudit.Document

/-- **What an open element counts as** in the structure of a document. -/
inductive Outline where
  /-- A schema block of a namespace. -/
  | block (namespaceName : Option String)
  /-- An annotation. -/
  | applied
  /-- Any other element. -/
  | other
deriving DecidableEq, Repr

namespace Outline

/-- The namespace of a block. -/
def namespace? : Outline → Option (Option String)
  | .block namespaceName => some namespaceName
  | _ => none

/-- The depth at which the outermost annotation stands, given the outlines innermost first. -/
def annotatedAt : List Outline → Option Nat
  | [] => none
  | o :: outer => (annotatedAt outer).or (if o = .applied then some outer.length else none)

theorem annotatedAt_lt {os : List Outline} {depth : Nat} (h : annotatedAt os = some depth) :
    depth < os.length := by
  induction os with
  | nil => cases h
  | cons o outer ih =>
    rw [List.length_cons]
    rcases Option.or_eq_some_iff.mp h with h | ⟨-, h⟩
    · exact Nat.lt_succ_of_lt (ih h)
    · obtain ⟨-, h⟩ := Option.ite_none_right_eq_some.mp h
      exact Option.some.inj h ▸ Nat.lt_succ_self _

/-- The outermost annotation is the same until the element at its depth closes. -/
theorem annotatedAt_tail (os : List Outline) : annotatedAt os.tail =
    if annotatedAt os = some (os.length - 1) then none else annotatedAt os := by
  cases os with
  | nil => rfl
  | cons o outer =>
    rw [List.tail_cons, annotatedAt, List.length_cons, Nat.add_sub_cancel]
    cases houter : annotatedAt outer with
    | none => by_cases ho : o = .applied <;> simp [ho]
    | some depth =>
      rw [Option.some_or, if_neg]
      exact fun heq => Nat.ne_of_lt (annotatedAt_lt houter) (Option.some.inj heq)

end Outline

/-- What an open element counts as. -/
def OpenElement.outline : OpenElement → Outline
  | .block b => .block b.namespaceName
  | .applied _ _ => .applied
  | _ => .other

/-- What a tag opens counts as. A detail of another element stands open as an empty element. -/
def Opened.outline : Opened → Outline
  | .element e => e.outline
  | _ => .other

namespace OpenElement

/-- Only a block counts as a block. -/
theorem namespace?_outline {e : OpenElement} (h : ∀ b, e = .block b → False) :
    e.outline.namespace? = none := by
  cases e with
  | block b => exact absurd rfl (h b)
  | _ => rfl

theorem outline_annotate (a : Annotation) (e : OpenElement) :
    (e.annotate a).outline = e.outline := by
  cases e <;> rfl

theorem outline_attach (child parent : OpenElement) :
    (child.attach parent).outline = parent.outline := by
  unfold attach
  split
  · split <;> rfl
  · split <;> rfl
  · split <;> rfl
  · split
    · exact outline_annotate _ _
    · rfl

theorem outline_addKey (path : String) (e : OpenElement) :
    (e.addKey path).outline = e.outline := by
  cases e <;> rfl

theorem outline_addDetail (detail : Opened) (e : OpenElement) :
    (e.addDetail detail).outline = e.outline := by
  unfold addDetail
  split
  · split <;> rfl
  · split <;> rfl
  · split <;> rfl
  · rfl

end OpenElement

section Opened

variable {name : String} {as : Attributes} {opened : Opened}

/-- **What a tag opens counts** as a block when it is a `Schema`, as an annotation when it is an
`Annotation`, and as neither otherwise. -/
theorem Opened.outline_of_ofTag (h : Opened.ofTag name as = .ok opened) :
    opened.outline =
      if name = "Schema" then .block (as.get? "Namespace")
      else if name = "Annotation" then .applied else .other := by
  unfold Opened.ofTag at h
  -- an element asks for two attributes, for one, or for none, and any other name opens nothing
  split at h
  all_goals first
    | (obtain rfl := eq_of_two h; rfl)
    | (obtain rfl := eq_of_one h; rfl)
    | (cases h; rfl)
    | (cases h; rw [if_neg ‹name = "Schema" → False›, if_neg ‹name = "Annotation" → False›]; rfl)

theorem Opened.outline_eq_applied_iff (h : Opened.ofTag name as = .ok opened) :
    opened.outline = .applied ↔ name = "Annotation" := by
  rw [Opened.outline_of_ofTag h]
  split
  · next hschema => exact iff_of_false (fun heq => nomatch heq) (hschema ▸ by decide)
  · split
    · next happlied => exact iff_of_true rfl happlied
    · next hother => exact iff_of_false (fun heq => nomatch heq) hother

theorem Opened.namespace?_outline (h : Opened.ofTag name as = .ok opened) :
    opened.outline.namespace? =
      if name = "Schema" then some (as.get? "Namespace") else none := by
  rw [Opened.outline_of_ofTag h]
  split
  · rfl
  · split <;> rfl

end Opened

namespace BlockReader

/-- The outlines of the open elements, innermost first. -/
def outlines (r : BlockReader) : List Outline := r.stack.map OpenElement.outline

/-- The namespaces of the blocks that were met: the complete ones first, then the open ones. -/
def namespaces (r : BlockReader) : List (Option String) :=
  r.blocks.map (·.namespaceName) ++ r.outlines.filterMap Outline.namespace?

section Stack

variable {stack stack' : List OpenElement} {piece : String}

theorem outlines_addPiece? (h : addPiece? piece stack = some stack') :
    stack'.map OpenElement.outline = stack.map OpenElement.outline := by
  induction stack generalizing stack' with
  | nil => cases h
  | cons e outer ih =>
    unfold addPiece? at h
    split at h
    · cases h
    · next heq =>
      cases heq
      cases h
      rfl
    · next heq =>
      cases heq
      obtain ⟨outer', houter, rfl⟩ := Option.map_eq_some_iff.mp h
      rw [List.map_cons, List.map_cons, ih houter]

/-- No piece is added just when no annotation is open. -/
theorem addPiece?_eq_none_iff (piece : String) (stack : List OpenElement) :
    addPiece? piece stack = none ↔
      Outline.annotatedAt (stack.map OpenElement.outline) = none := by
  induction stack with
  | nil => exact iff_of_true rfl rfl
  | cons e outer ih =>
    rw [List.map_cons, Outline.annotatedAt, Option.or_eq_none_iff, ← ih]
    by_cases he : e.outline = .applied
    · cases e with
      | applied a pieces => simp [addPiece?, he]
      | _ => cases he
    · have hskip : addPiece? piece (e :: outer) = (addPiece? piece outer).map (e :: ·) := by
        cases e with
        | applied a pieces => exact absurd rfl he
        | _ => rfl
      rw [hskip, Option.map_eq_none_iff, if_neg he, eq_self, and_true]

theorem outlines_addKey (path : String) (stack : List OpenElement) :
    (addKey path stack).map OpenElement.outline = stack.map OpenElement.outline := by
  induction stack with
  | nil => rfl
  | cons e outer ih =>
    unfold addKey
    split
    · rw [List.map_cons, List.map_cons, OpenElement.outline_addKey]
    · rw [List.map_cons, List.map_cons, ih]

theorem outlines_addDetail (detail : Opened) (stack : List OpenElement) :
    (addDetail detail stack).map OpenElement.outline = stack.map OpenElement.outline := by
  cases stack with
  | nil => rfl
  | cons e outer =>
    rw [addDetail, List.map_cons, List.map_cons, OpenElement.outline_addDetail]

theorem outlines_push (opened : Opened) (stack : List OpenElement) :
    (push opened stack).map OpenElement.outline =
      opened.outline :: stack.map OpenElement.outline := by
  cases opened with
  | element e => rfl
  | keyPath path => exact congrArg (.other :: ·) (outlines_addKey path stack)
  | member m => exact congrArg (.other :: ·) (outlines_addDetail (.member m) stack)
  | parameter p => exact congrArg (.other :: ·) (outlines_addDetail (.parameter p) stack)
  | returnType t => exact congrArg (.other :: ·) (outlines_addDetail (.returnType t) stack)
  | binding b => exact congrArg (.other :: ·) (outlines_addDetail (.binding b) stack)

end Stack

section Enter

variable {r : BlockReader} {tag : Markup.Tag} {as : Attributes}

theorem enter_of_error {error : DocumentError} (h : Attributes.ofTag tag = .error error) :
    r.enter tag = .error error := by
  rw [enter, h]
  rfl

/-- In an annotation, a tag is a piece of the value. -/
theorem enter_of_piece {stack : List OpenElement} (h : Attributes.ofTag tag = .ok as)
    (hpiece : addPiece? (as.rendered tag.localName) r.stack = some stack) :
    r.enter tag = .ok { r with stack := .other :: stack } := by
  simp only [enter, h, bind, Except.bind, hpiece]
  rfl

/-- Outside of annotations, a tag opens an element. -/
theorem enter_of_opened {opened : Opened} (h : Attributes.ofTag tag = .ok as)
    (hpiece : addPiece? (as.rendered tag.localName) r.stack = none)
    (hopened : Opened.ofTag tag.localName as = .ok opened) :
    r.enter tag = .ok { r with stack := push opened r.stack } := by
  simp only [enter, h, bind, Except.bind, hpiece, hopened]
  rfl

end Enter

variable (r : BlockReader)

theorem outlines_leave : r.leave.outlines = r.outlines.tail := by
  unfold leave outlines
  split
  · next h => rw [h]; rfl
  · next h => rw [h]; rfl
  · next h => rw [h]; rfl
  · next h =>
    rw [h]
    exact congrArg (· :: _) (OpenElement.outline_attach _ _)

/-- **Only a block is complete when it closes.** -/
theorem map_blocks_leave : r.leave.blocks.map (·.namespaceName) =
    r.blocks.map (·.namespaceName) ++ (r.outlines.take 1).filterMap Outline.namespace? := by
  unfold leave outlines
  split
  · next h => rw [h]; exact (List.append_nil _).symm
  · next h => rw [h]; exact List.map_append
  · next e hblock h =>
    rw [h]
    simp [OpenElement.namespace?_outline hblock]
  · next e parent outer hblock h =>
    rw [h]
    simp [OpenElement.namespace?_outline hblock]

theorem namespaces_leave : r.leave.namespaces = r.namespaces := by
  rw [namespaces, map_blocks_leave, outlines_leave, List.append_assoc, ← List.filterMap_append,
    ← List.drop_one, List.take_append_drop, namespaces]

end BlockReader

end CsdlAudit.Document
