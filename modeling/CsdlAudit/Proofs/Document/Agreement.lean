import CsdlAudit.AuditError
import CsdlAudit.Proofs.Document.Checked
import CsdlAudit.Proofs.Document.Outline

/-!
# The checker and the reader agree

The checker and the reader run over the same events, each with a state of its own. The checker
counts open elements and blocks, and keeps the depth of the outermost open annotation; the reader
keeps the open elements themselves. As long as nothing is found, the two are in step (`InStep`): the
counts are those of the reader's elements. One event keeps them in step, or the reader stops at
something that the checker does not look at (`InStep.advance`), and so does a run of events
(`InStep.run`).

So the blocks of a compliant document can be read, but for an attribute list or a reference that was
left uninspected, and they are what the checker counted (`readsAsChecked_of_compliant`).
-/

namespace CsdlAudit

/-- The tag of an event. -/
def Markup.Event.tag? : Markup.Event → Option Markup.Tag
  | .opening tag | .empty tag => some tag
  | _ => none

namespace Document

/-- **What the checker does not look at**, where it stands before an event: the error that the
reader meets there. -/
inductive Uninspected (c : Checker) (e : Markup.Event) : DocumentError → Prop
  /-- The attributes of a tag in an annotation, or of an element that needs none. -/
  | malformed {tag : Markup.Tag} {fault : Markup.AttributeFault} (htag : e.tag? = some tag)
      (hskipped : c.annotatedAt ≠ none ∨ neededBy? tag.localName = none)
      (hfault : tag.attributes.fault = some fault) : Uninspected c e (.malformed fault)
  /-- The references in the value of an attribute. -/
  | value {tag : Markup.Tag} {a : Markup.Attribute} {fault : Markup.ReferenceFault}
      (htag : e.tag? = some tag) (ha : a ∈ tag.attributes.attributes)
      (hfault : Markup.expand a.raw = .error fault) : Uninspected c e (.reference fault)
  /-- The references in a text. -/
  | text {raw : String} {fault : Markup.ReferenceFault} (htext : e = .text raw)
      (hfault : Markup.expand raw = .error fault) : Uninspected c e (.reference fault)

/-- **The checker and the reader are in step**: what the checker counts, the reader has. -/
structure InStep (c : Checker) (r : BlockReader) : Prop where
  /-- As many elements are open. -/
  depth : c.depth = r.outlines.length
  /-- The outermost open annotation stands at the same depth. -/
  annotatedAt : c.annotatedAt = Outline.annotatedAt r.outlines
  /-- As many blocks were met. -/
  blocks : c.blocks = r.namespaces.length
  /-- Each block has a namespace. -/
  named : ∀ n ∈ r.namespaces, n.isSome = true

namespace InStep

variable {c c' : Checker} {r r' : BlockReader}

theorem initial : InStep .initial .initial where
  depth := rfl
  annotatedAt := rfl
  blocks := rfl
  named := fun _ hn => absurd hn List.not_mem_nil

/-- What happens inside of the open elements keeps them in step. -/
theorem of_outlines (h : InStep c r) (houtlines : r'.outlines = r.outlines)
    (hblocks : r'.blocks = r.blocks) : InStep c r' := by
  have hnamespaces : r'.namespaces = r.namespaces := by
    rw [BlockReader.namespaces, houtlines, hblocks, BlockReader.namespaces]
  exact ⟨houtlines ▸ h.depth, houtlines ▸ h.annotatedAt, hnamespaces ▸ h.blocks,
    hnamespaces ▸ h.named⟩

/-- The innermost element closes on both sides. -/
theorem leave (h : InStep c r) : InStep c.leave r.leave where
  depth := by
    rw [BlockReader.outlines_leave, List.length_tail, ← h.depth]
    rfl
  annotatedAt := by
    rw [BlockReader.outlines_leave, Outline.annotatedAt_tail, ← h.annotatedAt, ← h.depth]
    rfl
  blocks := h.blocks.trans (congrArg List.length r.namespaces_leave.symm)
  named := r.namespaces_leave.symm ▸ h.named

/-- One more element is open on both sides. -/
theorem enter (h : InStep c r) {o : Outline} (houtlines : r'.outlines = o :: r.outlines)
    (hblocks : r'.blocks = r.blocks) (hdepth : c'.depth = c.depth + 1)
    (hannotated : c'.annotatedAt =
      c.annotatedAt.or (if o = .applied then some c.depth else none))
    (hcount : c'.blocks = c.blocks + o.namespace?.toList.length)
    (hnamed : ∀ n ∈ o.namespace?, n.isSome = true) : InStep c' r' := by
  have hnamespaces : r'.namespaces =
      r.blocks.map (·.namespaceName) ++
        (o.namespace?.toList ++ r.outlines.filterMap Outline.namespace?) := by
    rw [BlockReader.namespaces, houtlines, hblocks]
    cases ho : o.namespace? with
    | none => rw [List.filterMap_cons_none ho]; rfl
    | some n => rw [List.filterMap_cons_some ho]; rfl
  refine ⟨?_, ?_, ?_, ?_⟩
  · rw [hdepth, houtlines, List.length_cons, h.depth]
  · rw [hannotated, houtlines, Outline.annotatedAt, h.annotatedAt, h.depth]
  · rw [hcount, h.blocks, hnamespaces, BlockReader.namespaces, List.length_append,
      List.length_append, List.length_append]
    omega
  · intro n hn
    rw [hnamespaces, List.mem_append, List.mem_append, Option.mem_toList] at hn
    rcases hn with hn | hn | hn
    · exact h.named n (List.mem_append_left _ hn)
    · exact hnamed n hn
    · exact h.named n (List.mem_append_right _ hn)

/-- A tag that is not read was left uninspected. -/
theorem uninspected {e : Markup.Event} {tag : Markup.Tag} {error : DocumentError}
    (htag : e.tag? = some tag) (hlacking : c.annotatedAt = none → lacking tag = [])
    (h : Attributes.ofTag tag = .error error) : Uninspected c e error := by
  rcases Attributes.ofTag_eq_error h with ⟨fault, hfault, rfl⟩ | ⟨a, ha, fault, hfault, rfl⟩
  · refine .malformed htag ?_ hfault
    by_cases houtside : c.annotatedAt = none
    · right
      cases hneeded : neededBy? tag.localName with
      | none => rfl
      | some needed =>
        have hread := (lacking_eq_nil_iff.mp (hlacking houtside) needed
          (neededBy?_eq_some_iff.mp hneeded)).1
        rw [hfault] at hread
        cases hread
    · exact .inl houtside
  · exact .value htag ha hfault

/-- The reader adds a piece just where the checker sees an annotation open. -/
theorem addPiece?_eq_none_iff (h : InStep c r) (piece : String) :
    BlockReader.addPiece? piece r.stack = none ↔ c.annotatedAt = none := by
  rw [BlockReader.addPiece?_eq_none_iff, ← BlockReader.outlines, ← h.annotatedAt]

/-- In an annotation, the checker counts the element and the reader adds a piece to the value. -/
theorem enter_piece (h : InStep c r) {tag : Markup.Tag} {piece : String}
    {stack : List OpenElement} (hpiece : BlockReader.addPiece? piece r.stack = some stack) :
    InStep (c.enter tag true) { r with stack := .other :: stack } := by
  obtain ⟨depth, hdepth⟩ : ∃ depth, c.annotatedAt = some depth := by
    refine Option.ne_none_iff_exists'.mp fun hnone => ?_
    rw [(h.addPiece?_eq_none_iff piece).mpr hnone] at hpiece
    cases hpiece
  refine h.enter (o := .other) ?_ rfl Checker.depth_enter ?_ ?_ fun n hn => nomatch hn
  · exact congrArg (.other :: ·) (BlockReader.outlines_addPiece? hpiece)
  · rw [Checker.annotatedAt_enter, hdepth]
    rfl
  · rw [Checker.blocks_enter, hdepth]
    rfl

/-- Outside of annotations, both see what the tag opens. -/
theorem enter_opened (h : InStep c r) {tag : Markup.Tag} {as : Attributes} {opened : Opened}
    (houtside : c.annotatedAt = none) (hopened : Opened.ofTag tag.localName as = .ok opened)
    (hnamespace : tag.localName = "Schema" → (as.get? "Namespace").isSome = true) :
    InStep (c.enter tag true) { r with stack := BlockReader.push opened r.stack } := by
  have hblock := Opened.namespace?_outline hopened
  refine h.enter (BlockReader.outlines_push opened r.stack) rfl Checker.depth_enter ?_ ?_ ?_
  · simp only [Checker.annotatedAt_enter, Opened.outline_eq_applied_iff hopened]
  · rw [Checker.blocks_enter, hblock]
    by_cases hschema : tag.localName = "Schema" <;> simp [houtside, hschema]
  · rw [hblock]
    intro n hn
    obtain ⟨hschema, hn⟩ := Option.ite_none_right_eq_some.mp hn
    rw [← Option.some.inj hn]
    exact hnamespace hschema

/-- **A tag opens an element on both sides**, unless the reader stops at it. -/
theorem enter_tag (h : InStep c r) {e : Markup.Event} {tag : Markup.Tag}
    (htag : e.tag? = some tag) (hlacking : c.annotatedAt = none → lacking tag = []) :
    (∃ r', r.enter tag = .ok r' ∧ InStep (c.enter tag true) r') ∨
      ∃ error, r.enter tag = .error error ∧ Uninspected c e error := by
  cases hattributes : Attributes.ofTag tag with
  | error error =>
    exact .inr ⟨error, BlockReader.enter_of_error hattributes,
      uninspected htag hlacking hattributes⟩
  | ok as =>
    left
    cases hpiece : BlockReader.addPiece? (as.rendered tag.localName) r.stack with
    | some stack =>
      exact ⟨_, BlockReader.enter_of_piece hattributes hpiece, h.enter_piece hpiece⟩
    | none =>
      have houtside := (h.addPiece?_eq_none_iff _).mp hpiece
      obtain ⟨⟨opened, hopened⟩, hnamespace⟩ := exists_opened (hlacking houtside) hattributes
      exact ⟨_, BlockReader.enter_of_opened hattributes hpiece hopened,
        h.enter_opened houtside hopened hnamespace⟩

/-- **An event keeps the checker and the reader in step**, unless the reader stops at it. -/
theorem advance (h : InStep c r) {e : Markup.Event} (hfound : (c.advance e).findings = []) :
    (∃ r', r.advance e = .ok r' ∧ InStep (c.advance e) r') ∨
      ∃ error, r.advance e = .error error ∧ Uninspected c e error := by
  cases e with
  | opening tag => exact h.enter_tag rfl (Checker.lacking_eq_nil hfound)
  | empty tag =>
    rcases h.enter_tag (e := .empty tag) rfl (Checker.lacking_eq_nil hfound) with
      ⟨r', hr', hstep⟩ | ⟨error, herror, hskipped⟩
    · left
      have hdepth : ∀ depth, c.annotatedAt = some depth → depth < c.depth := fun depth hd =>
        h.depth ▸ Outline.annotatedAt_lt (h.annotatedAt ▸ hd)
      refine ⟨r'.leave, ?_, ?_⟩
      · rw [BlockReader.advance, hr']
        rfl
      · rw [Checker.advance, ← Checker.leave_enter hdepth]
        exact hstep.leave
    · refine .inr ⟨error, ?_, hskipped⟩
      rw [BlockReader.advance, herror]
      rfl
  | closing => exact .inl ⟨r.leave, rfl, h.leave⟩
  | text raw =>
    rw [BlockReader.advance, BlockReader.text]
    split
    · next fault hfault => exact .inr ⟨_, rfl, .text rfl hfault⟩
    · split
      · next stack hpiece =>
        exact .inl ⟨_, rfl, h.of_outlines (BlockReader.outlines_addPiece? hpiece) rfl⟩
      · exact .inl ⟨r, rfl, h⟩

/-- **A run of events keeps the checker and the reader in step**, unless the reader stops at one of
them. -/
theorem run {events : List Markup.Event} (h : InStep c r)
    (hfound : (events.foldl Checker.advance c).findings = []) :
    (∃ r', r.run events = .ok r' ∧ InStep (events.foldl Checker.advance c) r') ∨
      ∃ error, r.run events = .error error ∧ ∃ before e after, events = before ++ e :: after ∧
        Uninspected (before.foldl Checker.advance c) e error := by
  induction events generalizing c r with
  | nil => exact .inl ⟨r, rfl, h⟩
  | cons e rest ih =>
    rw [BlockReader.run]
    rcases h.advance (Checker.findings_of_foldl hfound) with
      ⟨r', hr', hstep⟩ | ⟨error, herror, hskipped⟩
    · rw [hr']
      rcases ih hstep hfound with hdone | ⟨error, herror, before, e', after, hrest, hskipped⟩
      · exact .inl hdone
      · exact .inr ⟨error, herror, e :: before, e', after, congrArg (e :: ·) hrest, hskipped⟩
    · rw [herror]
      exact .inr ⟨error, rfl, [], e, rest, rfl, hskipped⟩

end InStep

/-! ## A compliant document -/

/-- What the checker does not look at is broken markup; it is never an attribute that is lacking. -/
theorem Uninspected.kind_eq {c : Checker} {e : Markup.Event} {error : DocumentError}
    (h : Uninspected c e error) (file : String) :
    (AuditError.document file error).kind = .markup := by
  cases h <;> rfl

/-- **What reading the blocks of a document comes to**, beside the verdict on it. -/
inductive ReadsAsChecked (reading : Markup.Reading) (fileName : String) :
    Except DocumentError (List SchemaBlock) → Prop
  /-- Reading fails on markup, at an event in which the checker did not look for it. -/
  | failed {error : DocumentError} (kind : (AuditError.document fileName error).kind = .markup)
      (skipped : ∃ before e after, reading.events = before ++ e :: after ∧
        Uninspected (before.foldl Checker.advance .initial) e error) :
      ReadsAsChecked reading fileName (.error error)
  /-- No element is left open, the blocks are as many as the checker counted and have namespaces,
  and the verdict warns of a document without blocks just when there are none. -/
  | counted {blocks : List SchemaBlock}
      (closed : BlockReader.initial.run reading.events = .ok ⟨[], blocks⟩)
      (count : blocks.length = (checked reading).blocks)
      (warned : noBlockWarning ∈ (judge reading fileName).warnings ↔ blocks = [])
      (named : ∀ b ∈ blocks, b.namespaceName.isSome = true) :
      ReadsAsChecked reading fileName (.ok blocks)

/-- A document with nothing wrong is read to its end, and all of its elements are closed. -/
theorem read_of_findings_eq_nil {reading : Markup.Reading} (h : findings reading = []) :
    reading.fault = none ∧ (checked reading).depth = 0 := by
  have hend := (List.append_eq_nil_iff.mp (List.append_eq_nil_iff.mp h).2).1
  split at hend
  · cases hend
  · next hfault => exact ⟨hfault, Nat.eq_zero_of_not_pos (by simpa using hend)⟩

/-- **A reading in which nothing is wrong** is read as it was checked. -/
theorem readsAsChecked_judge {reading : Markup.Reading} {fileName : String}
    (h : (judge reading fileName).compliant = true) :
    ReadsAsChecked reading fileName (blocksOf reading) := by
  have hnothing := compliant_judge.mp h
  obtain ⟨hfault, hdepth⟩ := read_of_findings_eq_nil hnothing
  rcases InStep.initial.run (List.append_eq_nil_iff.mp hnothing).1 with
    ⟨⟨stack, blocks⟩, hrun, hstep⟩ | ⟨error, hrun, hskipped⟩
  · have hstack : stack = [] := by
      rw [← List.map_eq_nil_iff, ← List.length_eq_zero_iff]
      exact hstep.depth.symm.trans hdepth
    subst hstack
    have hnamespaces : BlockReader.namespaces ⟨[], blocks⟩ = blocks.map (·.namespaceName) :=
      List.append_nil _
    have hcount : blocks.length = (checked reading).blocks := by
      rw [← List.length_map (·.namespaceName), ← hnamespaces]
      exact hstep.blocks.symm
    rw [blocksOf, hrun, hfault]
    refine .counted hrun hcount ?_ fun b hb => hstep.named _ ?_
    · rw [mem_warnings_judge, and_iff_right hnothing, ← hcount, List.length_eq_zero_iff]
    · rw [hnamespaces]
      exact List.mem_map_of_mem hb
  · obtain ⟨before, e, after, hevents, huninspected⟩ := hskipped
    rw [blocksOf, hrun]
    exact .failed (huninspected.kind_eq fileName) ⟨before, e, after, hevents, huninspected⟩

/-- **A compliant document is read as it was checked.** The checker and the reader of blocks get
one reading, and it may be any. -/
theorem readsAsChecked_of_compliant :
    (∀ document fileName, (check document fileName).compliant = true →
      ReadsAsChecked (Markup.read document) fileName (readBlocks document)) ∧
      ∀ reading fileName, (judge reading fileName).compliant = true →
        ReadsAsChecked reading fileName (blocksOf reading) :=
  ⟨fun _ _ => readsAsChecked_judge, fun _ _ => readsAsChecked_judge⟩

/-- A document with one block. The term in the annotation has no name. -/
def nested : String :=
  "<Edmx><Schema Namespace='N'><Term Name='T' Type='Edm.String'>" ++
    "<Annotation Term='A'><Term/></Annotation></Term></Schema></Edmx>"

/-- A document with an attribute that has no value, on an element that needs none. -/
def unvalued : String := "<Schema Namespace='N'><Note text/></Schema>"

/-- A reading of one block. -/
def oneBlock : Markup.Reading := ⟨[.empty ⟨"Schema", " Namespace='N'"⟩], none⟩

/-- **Three compliant documents**: the blocks of two are read, and those of the other are not. -/
theorem readsAsChecked_nested :
    ReadsAsChecked (Markup.read nested) "a.xml" (readBlocks nested) ∧
      (readBlocks nested).toOption.map List.length = some 1 ∧
      ReadsAsChecked (Markup.read unvalued) "b.xml" (readBlocks unvalued) ∧
      (readBlocks unvalued).toOption = none ∧
      ReadsAsChecked oneBlock "c.xml" (blocksOf oneBlock) ∧
      (blocksOf oneBlock).toOption.map List.length = some 1 := by
  have hnested : (check nested "a.xml").compliant = true := by decide +kernel
  have hunvalued : (check unvalued "b.xml").compliant = true := by decide +kernel
  have honeBlock : (judge oneBlock "c.xml").compliant = true := by decide +kernel
  obtain ⟨hcheck, hjudge⟩ := readsAsChecked_of_compliant
  exact ⟨hcheck nested "a.xml" hnested, by decide +kernel, hcheck unvalued "b.xml" hunvalued,
    by decide +kernel, hjudge oneBlock "c.xml" honeBlock, by decide +kernel⟩

end Document

end CsdlAudit
