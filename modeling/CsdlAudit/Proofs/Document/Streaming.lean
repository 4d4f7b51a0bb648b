import CsdlAudit.Document.Blocks
import CsdlAudit.Proofs.Document.Offer

/-!
# Reading blocks is reading a tree

The reader has no tree. It holds the open elements on a stack, puts a detail into an element while
that is still open, looks through the stack for an annotation or a structured type, and folds an
element into its parent when it closes. Still, the blocks are those that the forest of the document
declares (`blocksOf_of_spells`).

What carries the proof is what a forest does to a reader outside of annotations, whatever is open
there (`BlockReader.after`): the innermost element gains what the forest offers, the nearest
structured type gets its parts of a key, and its blocks are complete. In an annotation the forest
only adds to the pieces of the annotation, however many elements are open inside of it.
-/

namespace CsdlAudit.Document

namespace OpenElement

theorem isStructured_gain (o : Offer) (e : OpenElement) :
    (e.gain o).isStructured = e.isStructured := by
  cases e <;> rfl

theorem outline_gain (o : Offer) (e : OpenElement) : (e.gain o).outline = e.outline := by
  cases e <;> rfl

theorem gain_addKey (o : Offer) (path : String) (e : OpenElement) :
    (e.addKey path).gain o = (e.gain o).addKey path := by
  cases e <;> rfl

theorem isStructured_addKey (path : String) (e : OpenElement) :
    (e.addKey path).isStructured = e.isStructured := by
  cases e <;> rfl

end OpenElement

namespace BlockReader

/-! ## The stack -/

/-- The stack when its innermost element has taken in an offer. -/
def gainTop (o : Offer) : List OpenElement → List OpenElement
  | [] => []
  | e :: outer => e.gain o :: outer

/-- The stack with further parts in the key of its innermost structured type. -/
def addKeys (paths : List String) (stack : List OpenElement) : List OpenElement :=
  paths.foldl (fun stack path => addKey path stack) stack

section Stack

variable (o : Offer) (path : String) (paths : List String) (e : OpenElement)
  (stack : List OpenElement)

theorem gainTop_none : gainTop .none stack = stack := by
  cases stack with
  | nil => rfl
  | cons e outer => rw [gainTop, OpenElement.gain_none]

theorem gainTop_append (p : Offer) : gainTop (o.append p) stack = gainTop p (gainTop o stack) := by
  cases stack with
  | nil => rfl
  | cons e outer => rw [gainTop, OpenElement.gain_append, gainTop, gainTop]

theorem outlines_gainTop :
    (gainTop o stack).map OpenElement.outline = stack.map OpenElement.outline := by
  cases stack with
  | nil => rfl
  | cons e outer => rw [gainTop, List.map_cons, List.map_cons, OpenElement.outline_gain]

theorem addKeys_append (more : List String) :
    addKeys (paths ++ more) stack = addKeys more (addKeys paths stack) :=
  List.foldl_append

theorem addKeys_nil : addKeys paths [] = [] := by
  induction paths with
  | nil => rfl
  | cons path paths ih => exact ih

theorem outlines_addKeys :
    (addKeys paths stack).map OpenElement.outline = stack.map OpenElement.outline := by
  induction paths generalizing stack with
  | nil => rfl
  | cons path paths ih => rw [addKeys, List.foldl_cons, ← addKeys, ih, outlines_addKey]

/-- A structured type keeps the parts of a key, and any other element passes them on. -/
theorem addKeys_cons : addKeys paths (e :: stack) =
    if e.isStructured then e.addKeys paths :: stack else e :: addKeys paths stack := by
  induction paths generalizing e stack with
  | nil =>
    cases e <;> simp [addKeys, OpenElement.addKeys]
  | cons path paths ih =>
    rw [addKeys, List.foldl_cons, ← addKeys, addKey]
    by_cases he : e.isStructured = true
    · rw [if_pos he, if_pos he, ih, OpenElement.isStructured_addKey, if_pos he]
      cases e with
      | structured isEntity t => simp [OpenElement.addKey, OpenElement.addKeys]
      | _ => cases he
    · rw [if_neg he, if_neg he, ih, if_neg he]
      rfl

/-- The parts of a key and an offer do not get in each other's way. -/
theorem addKeys_gainTop : addKeys paths (gainTop o stack) = gainTop o (addKeys paths stack) := by
  induction paths generalizing stack with
  | nil => rfl
  | cons path paths ih =>
    have hone : addKey path (gainTop o stack) = gainTop o (addKey path stack) := by
      cases stack with
      | nil => rfl
      | cons e outer =>
        rw [gainTop, addKey, addKey, OpenElement.isStructured_gain]
        split
        · rw [gainTop, OpenElement.gain_addKey]
        · rfl
    rw [addKeys, List.foldl_cons, ← addKeys, hone, ih]
    rfl

theorem addDetail_eq_gainTop (detail : Opened) :
    addDetail detail stack = gainTop detail.detailOffer stack := by
  cases stack with
  | nil => rfl
  | cons e outer => rw [addDetail, gainTop, Opened.addDetail_eq_gain]

end Stack

/-! ## What a forest does to a reader -/

/-- **The reader after a forest**, outside of annotations. -/
def after (r : BlockReader) (f : Forest) : BlockReader :=
  ⟨addKeys f.keyPaths (gainTop f.offer r.stack), r.blocks ++ f.blocks⟩

theorem after_nil (r : BlockReader) : r.after .nil = r := by
  rw [after, Forest.offer_nil, gainTop_none]
  exact congrArg (BlockReader.mk r.stack) (List.append_nil _)

theorem after_text (r : BlockReader) (s : String) (rest : Forest) :
    r.after (.text s rest) = r.after rest := rfl

/-- The first element comes first. -/
theorem after_element (r : BlockReader) (name : String) (as : Attributes)
    (content rest : Forest) :
    r.after (.element name as content rest) = (r.after (.single name as content)).after rest := by
  have hkeys : (Forest.element name as content rest).keyPaths =
      (Forest.single name as content).keyPaths ++ rest.keyPaths := by
    simp only [Forest.single, Forest.keyPaths, List.append_nil]
  have hblocks : (Forest.element name as content rest).blocks =
      (Forest.single name as content).blocks ++ rest.blocks := by
    simp only [Forest.single, Forest.blocks, List.append_nil]
  simp only [after, Forest.offer_element, hkeys, hblocks, gainTop_append, addKeys_append,
    addKeys_gainTop, List.append_assoc]

theorem outlines_after (r : BlockReader) (f : Forest) : (r.after f).outlines = r.outlines := by
  rw [outlines, after, outlines_addKeys, outlines_gainTop, outlines]

/-- **A child that closes** is taken in by its parent, or is a block. -/
theorem leave_cons (child : OpenElement) (stack : List OpenElement) (blocks : List SchemaBlock) :
    leave ⟨child :: stack, blocks⟩ =
      ⟨gainTop child.offer stack, blocks ++ child.block?.toList⟩ := by
  cases child with
  | block b =>
    show (⟨stack, blocks ++ [b]⟩ : BlockReader) = ⟨gainTop .none stack, blocks ++ [b]⟩
    rw [gainTop_none]
  | _ =>
    cases stack with
    | nil => exact congrArg (BlockReader.mk []) (List.append_nil _).symm
    | cons parent outer =>
      rw [gainTop, ← OpenElement.attach_eq_gain]
      exact congrArg (BlockReader.mk _) (List.append_nil _).symm

/-- The reader when a tag has opened something and its content was read. -/
def filled (r : BlockReader) (content : Forest) (opened : Opened) : BlockReader :=
  match opened with
  | .element (.applied a pieces) =>
    ⟨.applied a (pieces ++ content.pieces) :: r.stack, r.blocks⟩
  | opened => after ⟨push opened r.stack, r.blocks⟩ content

/-- **When the element closes**, the reader is where its forest takes it. -/
theorem leave_filled {r : BlockReader} {name : String} {as : Attributes} {opened : Opened}
    (h : Opened.ofTag name as = .ok opened) (content : Forest) :
    (r.filled content opened).leave = r.after (.single name as content) := by
  obtain ⟨hoffer, hkeys, hblocks⟩ := Opened.single_of_ofTag h content
  rw [after, ← hoffer, ← hkeys, ← hblocks]
  -- an empty element takes nothing in, and hands on the parts of a key
  have hother : ∀ stack, (after ⟨.other :: stack, r.blocks⟩ content).leave =
      ⟨addKeys content.keyPaths stack, r.blocks ++ content.blocks⟩ := by
    intro stack
    rw [after, gainTop, addKeys_cons]
    refine (leave_cons _ _ _).trans ?_
    rw [OpenElement.gain, OpenElement.offer, gainTop_none]
    exact congrArg (BlockReader.mk _) (List.append_nil _)
  cases opened with
  | element e =>
    cases e with
    | applied a pieces => exact leave_cons _ _ _
    | structured isEntity t =>
      show (after ⟨.structured isEntity t :: r.stack, r.blocks⟩ content).leave = _
      rw [after, gainTop, addKeys_cons]
      exact (leave_cons _ _ _).trans (congrArg (BlockReader.mk _) (List.append_assoc _ _ _))
    | _ =>
      show (after ⟨_ :: r.stack, r.blocks⟩ content).leave = _
      rw [after, gainTop, addKeys_cons]
      refine (leave_cons _ _ _).trans ?_
      rw [← addKeys_gainTop, List.append_assoc]
      rfl
  | keyPath path =>
    refine (hother _).trans ?_
    show _ = (⟨addKeys (path :: content.keyPaths) (gainTop .none r.stack), _⟩ : BlockReader)
    rw [gainTop_none]
    rfl
  | _ =>
    refine (hother _).trans ?_
    rw [addDetail_eq_gainTop]
    rfl

theorem filled_of_ne {opened : Opened} (h : opened.outline ≠ .applied) (r : BlockReader)
    (content : Forest) :
    r.filled content opened = after ⟨push opened r.stack, r.blocks⟩ content := by
  unfold filled
  split
  · exact absurd rfl h
  · rfl

/-! ## Reading -/

variable {content rest : Forest} {tag : Markup.Tag} {as : Attributes}
  {inner events : List Markup.Event}

theorem run_cons {r r' : BlockReader} {e : Markup.Event} (h : r.advance e = .ok r')
    (events : List Markup.Event) : r.run (e :: events) = r'.run events := by
  rw [run, h]

/-- An element in one tag is read like one with nothing between its tags. -/
theorem run_empty (r : BlockReader) (tag : Markup.Tag) (events : List Markup.Event) :
    r.run (.empty tag :: events) = r.run (.opening tag :: .closing :: events) := by
  simp only [run, advance]
  cases r.enter tag <;> rfl

/-- **The events do to a reader in an annotation what the forest says**: they add its pieces to
those of the annotation, with `depth` elements open inside of it. -/
def TakesInside (f : Forest) (events : List Markup.Event) : Prop :=
  ∀ depth a pieces outer blocks more,
    run ⟨List.replicate depth .other ++ .applied a pieces :: outer, blocks⟩ (events ++ more) =
      run ⟨List.replicate depth .other ++ .applied a (pieces ++ f.pieces) :: outer, blocks⟩ more

/-- **The events do to a reader outside of annotations what the forest says.** -/
def TakesOutside (f : Forest) (events : List Markup.Event) : Prop :=
  ∀ r : BlockReader, Outline.annotatedAt r.outlines = none →
    ∀ more, r.run (events ++ more) = (r.after f).run more

/-- An element that needs nothing it lacks is opened; a block needs nothing. -/
theorem exists_opened_of_needs {name : String}
    (h : name ≠ "Schema" →
      ∀ needed ∈ (neededBy? name).getD [], (as.get? needed).isSome = true) :
    ∃ opened, Opened.ofTag name as = .ok opened := by
  by_cases hschema : name = "Schema"
  · exact hschema ▸ ⟨_, rfl⟩
  · exact exists_opened_of_isSome (h hschema)

theorem addPiece?_applied (piece : String) (depth : Nat) (a : Annotation) (pieces : List String)
    (outer : List OpenElement) :
    addPiece? piece (List.replicate depth .other ++ .applied a pieces :: outer) =
      some (List.replicate depth .other ++ .applied a (pieces ++ [piece]) :: outer) := by
  induction depth with
  | zero => rfl
  | succ depth ih =>
    rw [List.replicate_succ, List.cons_append, addPiece?, ih]
    · rfl
    · intro _ _ h
      cases h

namespace TakesInside

theorem nil : TakesInside .nil [] := by
  intro depth a pieces outer blocks more
  rw [Forest.pieces, List.append_nil, List.nil_append]

theorem text {raw s : String} (hexpand : Markup.expand raw = .ok s)
    (hrest : TakesInside rest events) : TakesInside (.text s rest) (.text raw :: events) := by
  intro depth a pieces outer blocks more
  have hadvance : advance ⟨List.replicate depth .other ++ .applied a pieces :: outer, blocks⟩
      (.text raw) =
        .ok ⟨List.replicate depth .other ++ .applied a (pieces ++ [s]) :: outer, blocks⟩ := by
    rw [advance, BlockReader.text, hexpand]
    dsimp only
    rw [addPiece?_applied]
  rw [List.cons_append, run_cons hadvance, hrest, List.append_assoc]
  rfl

theorem element (hattributes : Attributes.ofTag tag = .ok as) (hcontent : TakesInside content inner)
    (hrest : TakesInside rest events) :
    TakesInside (.element tag.localName as content rest)
      (.opening tag :: inner ++ .closing :: events) := by
  intro depth a pieces outer blocks more
  have henter : advance ⟨List.replicate depth .other ++ .applied a pieces :: outer, blocks⟩
      (.opening tag) =
        .ok ⟨List.replicate (depth + 1) .other ++
          .applied a (pieces ++ [as.rendered tag.localName]) :: outer, blocks⟩ := by
    refine enter_of_piece hattributes ?_
    exact addPiece?_applied _ depth a pieces outer
  have hleave : ∀ stack, leave ⟨.other :: stack, blocks⟩ = ⟨stack, blocks⟩ := by
    intro stack
    rw [leave_cons, OpenElement.offer, gainTop_none]
    exact congrArg (BlockReader.mk _) (List.append_nil _)
  calc run ⟨List.replicate depth .other ++ .applied a pieces :: outer, blocks⟩
        (.opening tag :: inner ++ .closing :: events ++ more)
    _ = run ⟨List.replicate (depth + 1) .other ++
          .applied a (pieces ++ [as.rendered tag.localName]) :: outer, blocks⟩
          (inner ++ .closing :: (events ++ more)) := by
      rw [List.cons_append, List.cons_append, run_cons henter, List.append_assoc,
        List.cons_append]
    _ = (leave ⟨.other :: (List.replicate depth .other ++
          .applied a (pieces ++ [as.rendered tag.localName] ++ content.pieces) :: outer),
          blocks⟩).run (events ++ more) := hcontent (depth + 1) a _ outer blocks _
    _ = run ⟨List.replicate depth .other ++ .applied a (pieces ++
          (Forest.element tag.localName as content rest).pieces) :: outer, blocks⟩ more := by
      rw [hleave, hrest, Forest.pieces]
      simp only [List.append_assoc, List.cons_append, List.nil_append]

theorem empty {f : Forest} (h : TakesInside f (.opening tag :: .closing :: events)) :
    TakesInside f (.empty tag :: events) := by
  intro depth a pieces outer blocks more
  rw [List.cons_append, run_empty]
  exact h depth a pieces outer blocks more

end TakesInside

namespace TakesOutside

theorem nil : TakesOutside .nil [] := by
  intro r _ more
  rw [after_nil, List.nil_append]

theorem text {raw s : String} (hexpand : Markup.expand raw = .ok s)
    (hrest : TakesOutside rest events) : TakesOutside (.text s rest) (.text raw :: events) := by
  intro r hplain more
  have hadvance : r.advance (.text raw) = .ok r := by
    rw [advance, BlockReader.text, hexpand]
    dsimp only
    rw [(addPiece?_eq_none_iff s r.stack).mpr hplain]
  rw [List.cons_append, run_cons hadvance, hrest r hplain, after_text]

theorem element {opened : Opened} (hattributes : Attributes.ofTag tag = .ok as)
    (hopened : Opened.ofTag tag.localName as = .ok opened) (hinside : TakesInside content inner)
    (houtside : tag.localName ≠ "Annotation" → TakesOutside content inner)
    (hrest : TakesOutside rest events) :
    TakesOutside (.element tag.localName as content rest)
      (.opening tag :: inner ++ .closing :: events) := by
  intro r hplain more
  have henter : r.advance (.opening tag) = .ok ⟨push opened r.stack, r.blocks⟩ :=
    enter_of_opened hattributes ((addPiece?_eq_none_iff _ _).mpr hplain) hopened
  have hcontent : ∀ more, run ⟨push opened r.stack, r.blocks⟩ (inner ++ more) =
      (r.filled content opened).run more := by
    intro more
    by_cases happlied : opened.outline = .applied
    · cases opened with
      | element e =>
        cases e with
        | applied a pieces => exact hinside 0 a pieces r.stack r.blocks more
        | _ => cases happlied
      | _ => cases happlied
    · have hplain' : Outline.annotatedAt (outlines ⟨push opened r.stack, r.blocks⟩) = none := by
        rw [outlines, outlines_push, Outline.annotatedAt, if_neg happlied, Option.or_none]
        exact hplain
      rw [filled_of_ne happlied]
      exact houtside (fun h => happlied ((Opened.outline_eq_applied_iff hopened).mpr h)) _
        hplain' more
  calc r.run (.opening tag :: inner ++ .closing :: events ++ more)
    _ = run ⟨push opened r.stack, r.blocks⟩ (inner ++ .closing :: (events ++ more)) := by
      rw [List.cons_append, List.cons_append, run_cons henter, List.append_assoc,
        List.cons_append]
    _ = (r.filled content opened).leave.run (events ++ more) := hcontent _
    _ = (r.after (.single tag.localName as content)).run (events ++ more) := by
      rw [leave_filled hopened]
    _ = (r.after (.element tag.localName as content rest)).run more := by
      rw [after_element]
      exact hrest _ ((outlines_after r _).symm ▸ hplain) more

theorem empty {f : Forest} (h : TakesOutside f (.opening tag :: .closing :: events)) :
    TakesOutside f (.empty tag :: events) := by
  intro r hplain more
  rw [List.cons_append, run_empty]
  exact h r hplain more

end TakesOutside

/-- **The reader does with events what their forest says**, in an annotation and outside of it. -/
theorem takes_of_spells {f : Forest} (h : Spells f events) :
    TakesInside f events ∧ (f.Complete → TakesOutside f events) := by
  induction h with
  | nil => exact ⟨TakesInside.nil, fun _ => TakesOutside.nil⟩
  | text hexpand _ ih =>
    exact ⟨TakesInside.text hexpand ih.1,
      fun hcomplete => TakesOutside.text hexpand (ih.2 hcomplete)⟩
  | element hname hattributes _ _ ihcontent ihrest =>
    subst hname
    refine ⟨TakesInside.element hattributes ihcontent.1 ihrest.1, fun hcomplete => ?_⟩
    obtain ⟨hneeds, hcontent, hrest⟩ := hcomplete
    obtain ⟨opened, hopened⟩ := exists_opened_of_needs hneeds
    exact TakesOutside.element hattributes hopened ihcontent.1
      (fun hname => ihcontent.2 (hcontent hname)) (ihrest.2 hrest)
  | empty hname hattributes _ ih =>
    subst hname
    refine ⟨(TakesInside.element hattributes TakesInside.nil ih.1).empty, fun hcomplete => ?_⟩
    obtain ⟨hneeds, -, hrest⟩ := hcomplete
    obtain ⟨opened, hopened⟩ := exists_opened_of_needs hneeds
    exact (TakesOutside.element hattributes hopened TakesInside.nil
      (fun _ => TakesOutside.nil) (ih.2 hrest)).empty

end BlockReader

/-- **The blocks that are read are those that the forest declares**, and nothing is left open. -/
theorem blocksOf_of_spells {f : Forest} {events : List Markup.Event} (h : Spells f events)
    (hcomplete : f.Complete) :
    BlockReader.initial.run events = .ok ⟨[], f.blocks⟩ ∧
      blocksOf ⟨events, none⟩ = .ok f.blocks ∧
      ∀ document, Markup.read document = ⟨events, none⟩ → readBlocks document = .ok f.blocks := by
  have hrun : BlockReader.initial.run events = .ok ⟨[], f.blocks⟩ := by
    have houtside := (BlockReader.takes_of_spells h).2 hcomplete .initial rfl []
    rw [List.append_nil] at houtside
    rw [houtside, BlockReader.after, BlockReader.initial, BlockReader.gainTop,
      BlockReader.addKeys_nil]
    rfl
  have hblocks : blocksOf ⟨events, none⟩ = .ok f.blocks := by
    rw [blocksOf, hrun]
  exact ⟨hrun, hblocks, fun document hread => by rw [readBlocks, hread, hblocks]⟩

/-- A document with elements in and out of place: a property in the block, a key in an element that
holds nothing, and a block with attributes inside of an annotation. -/
def misplaced : String :=
  "<Schema Namespace='N'><EntityType Name='T'><Key><PropertyRef Name='Id'/></Key>" ++
    "<Annotation Term='A'><Schema x='1' x1='2'>x</Schema></Annotation></EntityType>" ++
    "<Property Name='P' Type='T'/></Schema>"

/-- What it is read as. -/
def misplacedEvents : List Markup.Event :=
  [.opening ⟨"Schema", " Namespace='N'"⟩, .opening ⟨"EntityType", " Name='T'"⟩,
    .opening ⟨"Key", ""⟩, .empty ⟨"PropertyRef", " Name='Id'"⟩, .closing,
    .opening ⟨"Annotation", " Term='A'"⟩, .opening ⟨"Schema", " x='1' x1='2'"⟩, .text "x",
    .closing, .closing, .closing, .empty ⟨"Property", " Name='P' Type='T'"⟩, .closing]

/-- Its elements. -/
def misplacedForest : Forest :=
  .element "Schema" ⟨[("Namespace", "N")]⟩
    (.element "EntityType" ⟨[("Name", "T")]⟩
      (.element "Key" ⟨[]⟩ (.element "PropertyRef" ⟨[("Name", "Id")]⟩ .nil .nil)
        (.element "Annotation" ⟨[("Term", "A")]⟩
          (.element "Schema" ⟨[("x", "1"), ("x1", "2")]⟩ (.text "x" .nil) .nil) .nil))
      (.element "Property" ⟨[("Name", "P"), ("Type", "T")]⟩ .nil .nil))
    .nil

/-- Its events write its elements, from the innermost element outwards. -/
theorem spells_misplaced : Spells misplacedForest misplacedEvents := by
  have hblock : Spells
      (.element "Schema" ⟨[("x", "1"), ("x1", "2")]⟩ (.text "x" .nil) .nil) _ :=
    @Spells.element ⟨"Schema", " x='1' x1='2'"⟩ _ _ _ _ [.text "x"] [] (by decide +kernel)
      (by with_unfolding_all rfl) (.text (by with_unfolding_all rfl) .nil) .nil
  have hannotation : Spells (.element "Annotation" ⟨[("Term", "A")]⟩ _ .nil) _ :=
    @Spells.element ⟨"Annotation", " Term='A'"⟩ _ _ _ _ _ [] (by decide +kernel)
      (by with_unfolding_all rfl) hblock .nil
  have hpart : Spells (.element "PropertyRef" ⟨[("Name", "Id")]⟩ .nil .nil) _ :=
    @Spells.empty ⟨"PropertyRef", " Name='Id'"⟩ _ _ _ [] (by decide +kernel)
      (by with_unfolding_all rfl) .nil
  have hkey : Spells (.element "Key" ⟨[]⟩ _ _) _ :=
    @Spells.element ⟨"Key", ""⟩ _ _ _ _ _ _ (by decide +kernel)
      (by with_unfolding_all rfl) hpart hannotation
  have hproperty : Spells (.element "Property" ⟨[("Name", "P"), ("Type", "T")]⟩ .nil .nil) _ :=
    @Spells.empty ⟨"Property", " Name='P' Type='T'"⟩ _ _ _ [] (by decide +kernel)
      (by with_unfolding_all rfl) .nil
  have htype : Spells (.element "EntityType" ⟨[("Name", "T")]⟩ _ _) _ :=
    @Spells.element ⟨"EntityType", " Name='T'"⟩ _ _ _ _ _ _ (by decide +kernel)
      (by with_unfolding_all rfl) hkey hproperty
  exact @Spells.element ⟨"Schema", " Namespace='N'"⟩ _ _ _ _ _ [] (by decide +kernel)
    (by with_unfolding_all rfl) htype .nil

/-- **Its blocks are those of its elements**: the type has the key and the annotation, the property
is dropped, and what stands in the annotation is its value, attributes in the order in which they are
written out. -/
theorem readBlocks_misplaced :
    Markup.read misplaced = ⟨misplacedEvents, none⟩ ∧ Spells misplacedForest misplacedEvents ∧
      misplacedForest.Complete ∧ readBlocks misplaced = .ok misplacedForest.blocks ∧
      misplacedForest.blocks =
        [{ SchemaBlock.bare (some "N") none with
          entityTypes :=
            [⟨"T", none, false, false, ["Id"], [], [],
              [⟨"A", none, some "Schema(x1=2,x=1) x"⟩]⟩] }] := by
  have hread : Markup.read misplaced = ⟨misplacedEvents, none⟩ := by decide +kernel
  have hcomplete : misplacedForest.Complete := by decide +kernel
  exact ⟨hread, spells_misplaced, hcomplete,
    (blocksOf_of_spells spells_misplaced hcomplete).2.2 misplaced hread, by decide +kernel⟩

end CsdlAudit.Document
