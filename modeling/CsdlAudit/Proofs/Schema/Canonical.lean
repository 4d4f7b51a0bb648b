import CsdlAudit.Proofs.Schema.Written
import CsdlAudit.Proofs.Text.Pieces

/-!
# What a canonical text tells

The canonical text of a definition opens with its kind, in quotes. A kind's name has no quote in it,
so it can be read back from the text up to the next quote: definitions with one canonical text are
of one kind (`Definition.kind_eq_of_canonicalText_eq`).

The kind says how to read the body, and the text is that of a value without numbers, which tells the
value. So a canonical text tells the whole definition: two definitions have one canonical text just
when they are one definition (`Definition.canonicalText_eq_iff`).
-/

namespace CsdlAudit

theorem ElementKind.name_injective {a b : ElementKind} (h : a.name = b.name) : a = b := by
  cases a <;> cases b <;> first | rfl | exact absurd h (by decide)

/-- A kind's name stands in a text as it is. -/
theorem ElementKind.escape_name (k : ElementKind) :
    k.name.toList.flatMap Json.escapeChar = k.name.toList := by
  cases k <;> decide

theorem ElementKind.quote_notMem_name (k : ElementKind) : '"' ∉ k.name.toList := by
  cases k <;> decide

/-- What precedes a separator is told by the whole. -/
theorem eq_of_append_cons_eq {α : Type} [DecidableEq α] {a : α} {xs ys us vs : List α}
    (hx : a ∉ xs) (hy : a ∉ ys) (h : xs ++ a :: us = ys ++ a :: vs) : xs = ys := by
  rw [← Text.takeWhile_ne_append_cons hx us, h, Text.takeWhile_ne_append_cons hy]

namespace Definition

/-- The text up to the kind. -/
def kindOpening : List Char :=
  '\x7b' :: (Json.lineBreak 1 ++ (Json.quote "kind" ++ [':', ' ', '"']))

/-- **A canonical text opens with the kind.** -/
theorem exists_canonicalText (d : Definition) :
    ∃ rest, d.canonicalText.toList = kindOpening ++ (d.kind.name.toList ++ '"' :: rest) := by
  refine ⟨',' :: (Json.lineBreak 1 ++ (Json.quote "definition" ++ ':' :: ' ' ::
    (Json.prettyChars 1 d.body ++ (Json.lineBreak 0 ++ ['\x7d'])))), ?_⟩
  rw [canonicalText, Json.pretty, String.toList_ofList, toJson, textField]
  simp only [Json.prettyChars, Json.prettyFields, Json.enclose, Json.separate, Json.quote,
    kindOpening, ElementKind.escape_name, List.append_assoc, List.cons_append, List.nil_append]

/-- **Definitions with one canonical text are of one kind.** -/
theorem kind_eq_of_canonicalText_eq {a b : Definition} (h : a.canonicalText = b.canonicalText) :
    a.kind = b.kind := by
  obtain ⟨as, ha⟩ := a.exists_canonicalText
  obtain ⟨bs, hb⟩ := b.exists_canonicalText
  rw [h, hb] at ha
  have hrest := List.append_cancel_left ha
  have hname := eq_of_append_cons_eq b.kind.quote_notMem_name a.kind.quote_notMem_name hrest
  exact (ElementKind.name_injective (String.toList_injective hname)).symm

/-! ## The whole definition -/

/-- Reads the body of a definition of a kind. -/
def ofBody? : ElementKind → Json → Option Definition
  | .entityType, v => (StructuredType.ofJson? v).map .entityType
  | .complexType, v => (StructuredType.ofJson? v).map .complexType
  | .enumType, v => (EnumType.ofJson? v).map .enumType
  | .typeDefinition, v => (TypeDefinition.ofJson? v).map .typeDefinition
  | .entityContainer, v => (EntityContainer.ofJson? v).map .entityContainer
  | .entitySet, v => (EntitySet.ofJson? v).map .entitySet
  | .singleton, v => (Singleton.ofJson? v).map .singleton
  | .actionImport, v => (ActionImport.ofJson? v).map .actionImport
  | .functionImport, v => (FunctionImport.ofJson? v).map .functionImport
  | .action, v => (Operation.ofJson? v).map .action
  | .function, v => (Operation.ofJson? v).map .function
  | .term, v => (Term.ofJson? v).map .term

/-- **A body is read back**, given the kind. -/
theorem ofBody?_body (d : Definition) : ofBody? d.kind d.body = some d := by
  cases d with
  | entityType t | complexType t =>
    simp only [kind, ofBody?, body, StructuredType.ofJson?_toJson, Option.map_some]
  | enumType t => simp only [kind, ofBody?, body, EnumType.ofJson?_toJson, Option.map_some]
  | typeDefinition t =>
    simp only [kind, ofBody?, body, TypeDefinition.ofJson?_toJson, Option.map_some]
  | entityContainer c =>
    simp only [kind, ofBody?, body, EntityContainer.ofJson?_toJson, Option.map_some]
  | entitySet s => simp only [kind, ofBody?, body, EntitySet.ofJson?_toJson, Option.map_some]
  | singleton s => simp only [kind, ofBody?, body, Singleton.ofJson?_toJson, Option.map_some]
  | actionImport i =>
    simp only [kind, ofBody?, body, ActionImport.ofJson?_toJson, Option.map_some]
  | functionImport i =>
    simp only [kind, ofBody?, body, FunctionImport.ofJson?_toJson, Option.map_some]
  | action o | function o =>
    simp only [kind, ofBody?, body, Operation.ofJson?_toJson, Option.map_some]
  | term t => simp only [kind, ofBody?, body, Term.ofJson?_toJson, Option.map_some]

theorem wordy_body (d : Definition) : d.body.Wordy := by
  cases d with
  | entityType t | complexType t => exact t.wordy_toJson
  | enumType t => exact t.wordy_toJson
  | typeDefinition t => exact t.wordy_toJson
  | entityContainer c => exact c.wordy_toJson
  | entitySet s => exact s.wordy_toJson
  | singleton s => exact s.wordy_toJson
  | actionImport i => exact i.wordy_toJson
  | functionImport i => exact i.wordy_toJson
  | action o | function o => exact o.wordy_toJson
  | term t => exact t.wordy_toJson

theorem wordy_toJson (d : Definition) : d.toJson.Wordy := by
  rw [toJson, Json.wordy_object_iff, Json.wordyFields_cons, Json.wordyFields_cons]
  exact ⟨Json.wordy_text _, d.wordy_body, Json.wordyFields_nil⟩

/-- **A canonical text tells the definition**: its kind, and each field of its body. -/
theorem canonicalText_eq_iff {a b : Definition} : a.canonicalText = b.canonicalText ↔ a = b := by
  refine ⟨fun h => ?_, congrArg canonicalText⟩
  have hkind : a.kind = b.kind := kind_eq_of_canonicalText_eq h
  have hbody : a.body = b.body := by
    have hjson : a.toJson = b.toJson := a.wordy_toJson.eq_of_pretty_eq b.wordy_toJson h
    simp only [toJson, Json.object.injEq, List.cons.injEq, Prod.mk.injEq, true_and, and_true]
      at hjson
    exact hjson.2
  refine Option.some.inj ?_
  calc some a = ofBody? a.kind a.body := a.ofBody?_body.symm
    _ = ofBody? b.kind b.body := by rw [hkind, hbody]
    _ = some b := b.ofBody?_body

end Definition

end CsdlAudit
