import CsdlAudit.Proofs.Conflict.Values
import CsdlAudit.Proofs.Document.Front

/-!
# Two forms of one value

The value of an annotation can be written as an attribute of its tag (`attributeForm`), or as an
element within it (`elementForm`). The two forms have nothing in common on their way through the
reader: the attribute is looked up by its name, and the element leaves its name and its text as two
pieces, which become a value when the annotation closes. They come to the same nevertheless, for
each name of a constant or a path and each value that does not begin or end with white space
(`formsAgree_of_reaches`).

What stands in front of a form matters only by where it leads the reader (`Reaches`): to an element
with no annotation open. There both forms leave the element with one annotation more, and whatever
follows, the document declares the same blocks. So two files that differ in the form alone are at
odds about an annotation only if one of them is at odds with itself.
-/

namespace CsdlAudit.Document

open Markup (Attribute Leads Spot Trimmed WritableTag escape tagContent tagWith textEvents)

/-! ## Written attributes -/

/-- Attributes with their values written out. -/
def written (pairs : List (String × String)) : List Attribute :=
  pairs.map fun p => ⟨p.1, escape p.2⟩

theorem escape_writable (key value : String) (hne : key.toList ≠ [])
    (hname : ∀ c ∈ key.toList, Markup.isNameChar c = true) :
    Attribute.Writable ⟨key, escape value⟩ where
  nonempty := hne
  name := hname
  value := Markup.not_mem_escape (n := ("quot", '"')) (by decide) (by decide) value

/-- **A name that an attribute may have**: it has the characters of a name and no prefix. -/
structure PlainName (name : String) : Prop where
  /-- There is a name. -/
  nonempty : name.toList ≠ []
  /-- It has the characters of a name. -/
  chars : ∀ c ∈ name.toList, Markup.isNameChar c = true
  /-- It has no prefix. -/
  plain : Markup.localName name = name

instance (name : String) : Decidable (PlainName name) :=
  decidable_of_iff (name.toList ≠ [] ∧ name.toList.all Markup.isNameChar = true ∧
      Markup.localName name = name) (by
    rw [List.all_eq_true]
    exact ⟨fun ⟨h, h', h''⟩ => ⟨h, h', h''⟩, fun ⟨h, h', h''⟩ => ⟨h, h', h''⟩⟩)

section Written

variable {name : String} {pairs : List (String × String)}

theorem writableTag_written (hname : PlainName name) (hpairs : ∀ p ∈ pairs, PlainName p.1)
    (hnodup : (pairs.map Prod.fst).Nodup) : WritableTag name (written pairs) where
  nonempty := hname.nonempty
  name := hname.chars
  attributes := by
    intro a ha
    obtain ⟨p, hp, rfl⟩ := List.mem_map.mp ha
    exact escape_writable p.1 p.2 (hpairs p hp).nonempty (hpairs p hp).chars
  nodup := by
    rw [written, List.map_map]
    exact hnodup

/-- Written values are read back, each under its key. -/
theorem addAll_written (hpairs : ∀ p ∈ pairs, PlainName p.1) (hnodup : (pairs.map Prod.fst).Nodup)
    {as : Attributes} (hnew : ∀ p ∈ pairs, ∀ e ∈ as.entries, e.1 ≠ p.1) :
    as.addAll (written pairs) = .ok ⟨as.entries ++ pairs⟩ := by
  induction pairs generalizing as with
  | nil => exact congrArg (Except.ok ∘ Attributes.mk) (List.append_nil _).symm
  | cons p pairs ih =>
    obtain ⟨hp, hnodup⟩ := List.nodup_cons.mp hnodup
    have hset : as.set p.1 p.2 = ⟨as.entries ++ [p]⟩ := by
      have hkept : as.entries.filter (fun e => e.1 != p.1) = as.entries :=
        List.filter_eq_self.mpr fun e he => by
          simpa using hnew p List.mem_cons_self e he
      rw [Attributes.set, hkept]
    have hlocal : (⟨p.1, escape p.2⟩ : Attribute).localKey = p.1 :=
      (hpairs p List.mem_cons_self).plain
    have hrest : ∀ q ∈ pairs, ∀ e ∈ as.entries ++ [p], e.1 ≠ q.1 := by
      intro q hq e he
      rcases List.mem_append.mp he with he | he
      · exact hnew q (List.mem_cons_of_mem p hq) e he
      · rw [List.mem_singleton.mp he]
        exact fun heq => hp (List.mem_map.mpr ⟨q, hq, heq.symm⟩)
    rw [written, List.map_cons, ← written, Attributes.addAll, Markup.expand_escape]
    dsimp only
    rw [hlocal, hset, ih (fun q hq => hpairs q (List.mem_cons_of_mem p hq)) hnodup hrest,
      List.append_assoc, List.singleton_append]

/-- **The attributes of a tag that is written are read back.** -/
theorem ofTag_written (hname : PlainName name) (hpairs : ∀ p ∈ pairs, PlainName p.1)
    (hnodup : (pairs.map Prod.fst).Nodup) :
    Attributes.ofTag (tagWith name (written pairs)) = .ok ⟨pairs⟩ := by
  have hall : Attributes.empty.addAll (written pairs) = .ok ⟨pairs⟩ :=
    addAll_written hpairs hnodup fun _ _ _ he => absurd he List.not_mem_nil
  rw [Attributes.ofTag, (writableTag_written hname hpairs hnodup).attributes_tagWith]
  dsimp only
  rw [hall]

/-- A tag without attributes. -/
theorem writableTag_bare (hname : PlainName name) : WritableTag name [] :=
  writableTag_written hname (fun _ hp => absurd hp List.not_mem_nil) List.nodup_nil

theorem ofTag_bare (hname : PlainName name) : Attributes.ofTag (tagWith name []) = .ok ⟨[]⟩ :=
  @ofTag_written name [] hname (fun _ hp => absurd hp List.not_mem_nil) List.nodup_nil

end Written

/-! ## The two forms -/

/-- What the tag of an annotation says in both forms. -/
def commonPairs (term : String) (qualifier : Option String) : List (String × String) :=
  ("Term", term) :: qualifier.toList.map ("Qualifier", ·)

/-- **The attribute form**: the value is an attribute of the annotation's tag. -/
def attributeForm (term : String) (qualifier : Option String) (name value : String) : String :=
  String.ofList ('<' :: (tagContent "Annotation"
    (written (commonPairs term qualifier ++ [(name, value)])) ++ ['/', '>']))

/-- **White space in the element form.** -/
structure Spacing where
  /-- Behind the tag of the annotation. -/
  afterTag : List Char
  /-- Before the value. -/
  beforeValue : List Char
  /-- Behind the value. -/
  afterValue : List Char
  /-- Before the closing tag of the annotation. -/
  beforeEnd : List Char
  /-- It is white space. -/
  isSpace : ∀ space ∈ [afterTag, beforeValue, afterValue, beforeEnd],
    ∀ c ∈ space, Markup.isSpace c = true

/-- **The element form**: the value is the content of an element in the annotation. -/
def elementForm (spacing : Spacing) (term : String) (qualifier : Option String)
    (name value : String) : String :=
  String.ofList ('<' :: (tagContent "Annotation" (written (commonPairs term qualifier)) ++ ['>'] ++
    (spacing.afterTag ++ '<' :: (tagContent name [] ++ ['>'])) ++
    (spacing.beforeValue ++ (escape value).toList ++ spacing.afterValue ++
      '<' :: '/' :: (name.toList ++ ['>'])) ++
    (spacing.beforeEnd ++ '<' :: '/' :: ("Annotation".toList ++ ['>']))))

example : attributeForm "T" none "String" "a<b" = "<Annotation Term=\"T\" String=\"a&lt;b\"/>" := by
  decide +kernel

/-- The names of constants and paths are plain, and none of them is a name of the common part. -/
theorem plainName_expressionNames : ∀ name ∈ expressionNames,
    PlainName name ∧ name ≠ "Term" ∧ name ≠ "Qualifier" := by decide +kernel

section Pairs

variable (term : String) (qualifier : Option String) {name : String} (value : String)

theorem plainName_commonPairs : ∀ p ∈ commonPairs term qualifier, PlainName p.1 := by
  have hterm : PlainName "Term" := by decide +kernel
  have hqualifier : PlainName "Qualifier" := by decide +kernel
  cases qualifier <;> simp [commonPairs, hterm, hqualifier]

theorem nodup_commonPairs : ((commonPairs term qualifier).map Prod.fst).Nodup := by
  cases qualifier <;> simp [commonPairs]

theorem plainName_pairs (hname : name ∈ expressionNames) :
    ∀ p ∈ commonPairs term qualifier ++ [(name, value)], PlainName p.1 := by
  intro p hp
  rcases List.mem_append.mp hp with hp | hp
  · exact plainName_commonPairs term qualifier p hp
  · rw [List.mem_singleton.mp hp]
    exact (plainName_expressionNames name hname).1

theorem nodup_pairs (hname : name ∈ expressionNames) :
    ((commonPairs term qualifier ++ [(name, value)]).map Prod.fst).Nodup := by
  obtain ⟨-, hterm, hqualifier⟩ := plainName_expressionNames name hname
  cases qualifier <;> simp [commonPairs, Ne.symm hterm, Ne.symm hqualifier]

end Pairs

/-! ## What the reader makes of the forms -/

section Lookup

variable {term : String} {qualifier : Option String} {name value : String}

/-- The element of an annotation that has a term. -/
theorem ofTag_annotation {as : Attributes} (hterm : as.get? "Term" = some term) :
    Opened.ofTag "Annotation" as = .ok (.element (.applied
      ⟨term, as.get? "Qualifier", expressionNames.findSome? as.get?⟩ [])) := by
  show (as.need "Annotation" "Term" >>= _) = _
  rw [Attributes.need, hterm]
  rfl

theorem get?_common (values : List (String × String))
    (hvalues : ∀ p ∈ values, p.1 ≠ "Qualifier") :
    Attributes.get? ⟨commonPairs term qualifier ++ values⟩ "Term" = some term ∧
      Attributes.get? ⟨commonPairs term qualifier ++ values⟩ "Qualifier" = qualifier := by
  have hnone : values.find? (fun e => e.1 == "Qualifier") = none := by
    simpa using fun a b => hvalues (a, b)
  cases qualifier <;> simp [Attributes.get?, commonPairs, hnone]

/-- Of the names of constants and paths the attributes have those of the value alone. -/
theorem get?_expression (values : List (String × String)) (hname : name ∈ expressionNames) :
    Attributes.get? ⟨commonPairs term qualifier ++ values⟩ name =
      Attributes.get? ⟨values⟩ name := by
  obtain ⟨-, hterm, hqualifier⟩ := plainName_expressionNames name hname
  cases qualifier <;> simp [Attributes.get?, commonPairs, Ne.symm hterm, Ne.symm hqualifier]

/-- **The attribute form has its value from the attribute.** -/
theorem findSome?_value (hname : name ∈ expressionNames) :
    expressionNames.findSome?
      (Attributes.get? ⟨commonPairs term qualifier ++ [(name, value)]⟩) = some value := by
  have hget : ∀ other ∈ expressionNames,
      Attributes.get? ⟨commonPairs term qualifier ++ [(name, value)]⟩ other =
        if name = other then some value else none := by
    intro other hother
    rw [get?_expression _ hother]
    by_cases heq : name = other <;> simp [Attributes.get?, heq]
  -- whichever name is found first, it can only be the one that was written
  have hsome : (expressionNames.findSome?
      (Attributes.get? ⟨commonPairs term qualifier ++ [(name, value)]⟩)).isSome = true :=
    List.findSome?_isSome_iff.mpr ⟨name, hname, by rw [hget name hname, if_pos rfl]; rfl⟩
  obtain ⟨found, hfound⟩ := Option.isSome_iff_exists.mp hsome
  obtain ⟨other, hother, hvalue⟩ := List.exists_of_findSome?_eq_some hfound
  rw [hget other hother] at hvalue
  rw [hfound, ← (Option.ite_none_right_eq_some.mp hvalue).2]

/-- **The element form has no value from an attribute.** -/
theorem findSome?_none :
    expressionNames.findSome? (Attributes.get? ⟨commonPairs term qualifier ++ []⟩) = none := by
  refine List.findSome?_eq_none_iff.mpr fun name hname => ?_
  rw [get?_expression _ hname]
  rfl

/-- An annotation is taken in by its parent with the value that its content writes. -/
theorem attach_applied (a : Annotation) (pieces : List String) (e : OpenElement) :
    (OpenElement.applied a pieces).attach e = e.annotate (finished a pieces) := by
  cases e <;> rfl

/-- **An annotation that was read** stands with the element around it. -/
theorem after_annotation {as : Attributes} {a : Annotation}
    (h : Opened.ofTag "Annotation" as = .ok (.element (.applied a []))) (content : Forest)
    (e : OpenElement) (outer : List OpenElement) (blocks : List SchemaBlock) :
    BlockReader.after ⟨e :: outer, blocks⟩ (.single "Annotation" as content) =
      ⟨e.annotate (finished a content.pieces) :: outer, blocks⟩ := by
  rw [← BlockReader.leave_filled h, ← attach_applied]
  rfl

end Lookup

/-- The value as the content of its element. -/
def valueForest (value : String) : Forest := if value = "" then .nil else .text value .nil

/-- What stands in the annotation of the element form: the name of the element, and its text. -/
theorem finished_elementForm (term : String) (qualifier : Option String) {name : String}
    (hname : name ∈ expressionNames) (value : String) :
    finished ⟨term, qualifier, none⟩ (Forest.single name ⟨[]⟩ (valueForest value)).pieces =
      ⟨term, qualifier, some value⟩ := by
  have hrendered : Attributes.rendered ⟨[]⟩ name = name := rfl
  -- an empty value leaves one piece alone, the name
  unfold valueForest
  by_cases hvalue : value = ""
  · simp [Forest.single, Forest.pieces, finished, contentValue, hrendered, hname, hvalue]
  · simp [Forest.single, Forest.pieces, finished, contentValue, hrendered, hname, hvalue]

/-! ## The events of the forms -/

/-- What the attribute form is read as. -/
def attributeEvents (term : String) (qualifier : Option String) (name value : String) :
    List Markup.Event :=
  [.empty (tagWith "Annotation" (written (commonPairs term qualifier ++ [(name, value)])))]

/-- What the element form is read as. -/
def elementEvents (term : String) (qualifier : Option String) (name value : String) :
    List Markup.Event :=
  .opening (tagWith "Annotation" (written (commonPairs term qualifier))) ::
    (.opening (tagWith name []) :: textEvents (escape value).toList ++ [.closing]) ++ [.closing]

/-- The element of the attribute form. -/
def attributeForest (term : String) (qualifier : Option String) (name value : String) : Forest :=
  .single "Annotation" ⟨commonPairs term qualifier ++ [(name, value)]⟩ .nil

/-- The elements of the element form. -/
def elementForest (term : String) (qualifier : Option String) (name value : String) : Forest :=
  .single "Annotation" ⟨commonPairs term qualifier⟩ (.single name ⟨[]⟩ (valueForest value))

section Events

variable {term : String} {qualifier : Option String} {name value : String} {opened : List String}

theorem plainName_annotation : PlainName "Annotation" := by decide +kernel

theorem spells_valueForest (value : String) :
    Spells (valueForest value) (textEvents (escape value).toList) := by
  by_cases hvalue : value = ""
  · subst hvalue
    exact .nil
  · rw [valueForest, if_neg hvalue, textEvents, if_neg (mt Markup.escape_eq_nil_iff.mp hvalue),
      String.ofList_toList]
    exact .text (Markup.expand_escape value) .nil

theorem spells_attributeForest (hname : name ∈ expressionNames) :
    Spells (attributeForest term qualifier name value)
      (attributeEvents term qualifier name value) :=
  .empty plainName_annotation.plain
    (ofTag_written plainName_annotation (plainName_pairs term qualifier value hname)
      (nodup_pairs term qualifier value hname)) .nil

theorem spells_elementForest (hname : name ∈ expressionNames) :
    Spells (elementForest term qualifier name value) (elementEvents term qualifier name value) := by
  have hplain : PlainName name := (plainName_expressionNames name hname).1
  have hvalue : Spells (.single name ⟨[]⟩ (valueForest value))
      (.opening (tagWith name []) :: textEvents (escape value).toList ++ [.closing]) :=
    .element hplain.plain (ofTag_bare hplain) (spells_valueForest value) .nil
  exact .element plainName_annotation.plain
    (ofTag_written plainName_annotation (plainName_commonPairs term qualifier)
      (nodup_commonPairs term qualifier)) hvalue .nil

theorem complete_attributeForest : (attributeForest term qualifier name value).Complete := by
  refine ⟨fun _ needed hneeded => ?_, fun hne => absurd rfl hne, trivial⟩
  obtain rfl : needed = "Term" := List.mem_singleton.mp hneeded
  rfl

theorem complete_elementForest : (elementForest term qualifier name value).Complete := by
  refine ⟨fun _ needed hneeded => ?_, fun hne => absurd rfl hne, trivial⟩
  obtain rfl : needed = "Term" := List.mem_singleton.mp hneeded
  rfl

/-- **The attribute form leads past itself**, from behind its `<`. -/
theorem leads_attributeForm (hname : name ∈ expressionNames) : ∃ stretch,
    (attributeForm term qualifier name value).toList = '<' :: stretch ∧
      Leads ⟨true, opened⟩ stretch (attributeEvents term qualifier name value) ⟨false, opened⟩ :=
  ⟨_, String.toList_ofList, Markup.leads_empty (writableTag_written plainName_annotation
    (plainName_pairs term qualifier value hname) (nodup_pairs term qualifier value hname))⟩

/-- **The element form leads past itself**, from behind its `<`. -/
theorem leads_elementForm (hname : name ∈ expressionNames) (hvalue : Trimmed value.toList)
    (spacing : Spacing) : ∃ stretch,
    (elementForm spacing term qualifier name value).toList = '<' :: stretch ∧
      Leads ⟨true, opened⟩ stretch (elementEvents term qualifier name value) ⟨false, opened⟩ := by
  have hspace : ∀ space ∈ [spacing.afterTag, spacing.beforeValue, spacing.afterValue,
      spacing.beforeEnd], ∀ c ∈ space, Markup.isSpace c = true := spacing.isSpace
  simp only [List.forall_mem_cons] at hspace
  obtain ⟨hafterTag, hbeforeValue, hafterValue, hbeforeEnd, -⟩ := hspace
  have hlt : '<' ∉ (escape value).toList :=
    Markup.not_mem_escape (n := ("lt", '<')) (by decide) (by decide) value
  have hannotation : WritableTag "Annotation" (written (commonPairs term qualifier)) :=
    writableTag_written plainName_annotation (plainName_commonPairs term qualifier)
      (nodup_commonPairs term qualifier)
  have helement : WritableTag name [] := writableTag_bare (plainName_expressionNames name hname).1
  have hinner : Leads ⟨true, "Annotation" :: opened⟩ (tagContent name [] ++ ['>'] ++
      (spacing.beforeValue ++ (escape value).toList ++ spacing.afterValue ++ ['<']) ++
        '/' :: (name.toList ++ ['>']))
      ([.opening (tagWith name [])] ++ textEvents (escape value).toList ++ [.closing])
      ⟨false, "Annotation" :: opened⟩ :=
    ((Markup.leads_opening helement).trans
      (Markup.leads_text hbeforeValue hafterValue hlt (Markup.trimmed_escape hvalue))).trans
        (Markup.leads_closing helement)
  have hall := ((((Markup.leads_opening hannotation).trans (Markup.leads_space hafterTag)).trans
    hinner).trans (Markup.leads_space hbeforeEnd)).trans
      (@Markup.leads_closing opened "Annotation" (writableTag_bare plainName_annotation))
  refine ⟨_, String.toList_ofList, ?_⟩
  simpa [elementEvents] using hall

end Events

/-! ## The forms agree -/

/-- **The calls hand in the blocks of a document**, under whatever files. -/
def ComeFrom (calls : List (String × Block)) (document : String) : Prop :=
  readBlocks document = .ok (calls.map fun call => call.2.schema)

/-- **The two forms of a value come to the same**, behind `front`, in the element `e` and those
around it. -/
structure FormsAgree (spacing : Spacing) (term : String) (qualifier : Option String)
    (name value front : String) (opened : List String) (e : OpenElement)
    (outer : List OpenElement) (blocks : List SchemaBlock) : Prop where
  /-- The attribute form leaves the annotation with its element. -/
  asAttribute : Reaches (front ++ attributeForm term qualifier name value).toList ⟨false, opened⟩
    ⟨e.annotate ⟨term, qualifier, some value⟩ :: outer, blocks⟩
  /-- So does the element form: the same annotation, with the same element. -/
  asElement : Reaches (front ++ elementForm spacing term qualifier name value).toList
    ⟨false, opened⟩ ⟨e.annotate ⟨term, qualifier, some value⟩ :: outer, blocks⟩
  /-- Whatever follows, the document declares the same blocks, or has the same fault. -/
  readBlocks_eq : ∀ back, readBlocks (front ++ attributeForm term qualifier name value ++ back) =
    readBlocks (front ++ elementForm spacing term qualifier name value ++ back)
  /-- Files with the two forms are reported for those keys alone that the file with the attribute
  form is at odds with itself about. -/
  conflicts : ∀ back calls calls',
    ComeFrom calls (front ++ attributeForm term qualifier name value ++ back) →
    ComeFrom calls' (front ++ elementForm spacing term qualifier name value ++ back) →
    OnePerKey (Registry.ofCalls calls).Contested
      (fun key => TellsValues ((Registry.ofCalls (calls ++ calls')).valuesOf key) key)
      (annotationConflicts (Registry.ofCalls (calls ++ calls')))
  /-- Any files that place the annotation on one element, in either form, are at odds about it only
  if one of them is at odds with itself. -/
  shared : ∀ namespaceName element calls calls',
    Registry.Places calls namespaceName element ⟨term, qualifier, some value⟩ →
    Registry.Places calls' namespaceName element ⟨term, qualifier, some value⟩ →
    let key := ⟨namespaceName, element, Annotation.termKey ⟨term, qualifier, some value⟩⟩
    (Registry.ofCalls (calls ++ calls')).Contested key ↔
      (Registry.ofCalls calls).Contested key ∨ (Registry.ofCalls calls').Contested key

section Agree

variable {term : String} {qualifier : Option String} {name value front : String}
  {opened : List String} {e : OpenElement} {outer : List OpenElement} {blocks : List SchemaBlock}

theorem after_attributeForest (hname : name ∈ expressionNames) :
    BlockReader.after ⟨e :: outer, blocks⟩ (attributeForest term qualifier name value) =
      ⟨e.annotate ⟨term, qualifier, some value⟩ :: outer, blocks⟩ := by
  have hvalues : ∀ p ∈ [(name, value)], p.1 ≠ "Qualifier" := by
    simpa using (plainName_expressionNames name hname).2.2
  obtain ⟨hterm, hqualifier⟩ := @get?_common term qualifier [(name, value)] hvalues
  have hopened := ofTag_annotation hterm
  rw [hqualifier, findSome?_value hname] at hopened
  exact after_annotation hopened .nil e outer blocks

theorem after_elementForest (hname : name ∈ expressionNames) :
    BlockReader.after ⟨e :: outer, blocks⟩ (elementForest term qualifier name value) =
      ⟨e.annotate ⟨term, qualifier, some value⟩ :: outer, blocks⟩ := by
  obtain ⟨hterm, hqualifier⟩ :=
    @get?_common term qualifier [] fun _ hp => absurd hp List.not_mem_nil
  have hopened := ofTag_annotation hterm
  rw [hqualifier, findSome?_none, List.append_nil] at hopened
  rw [elementForest, after_annotation hopened, finished_elementForm term qualifier hname]

/-- **The two forms of a value agree**, for each name of a constant or a path, each value without
white space at its ends, and each place outside of annotations. -/
theorem formsAgree_of_reaches (hname : name ∈ expressionNames) (hvalue : Trimmed value.toList)
    (hfront : Reaches (front.toList ++ ['<']) ⟨true, opened⟩ ⟨e :: outer, blocks⟩)
    (hplain : Outline.annotatedAt (BlockReader.outlines ⟨e :: outer, blocks⟩) = none)
    (spacing : Spacing) (term : String) (qualifier : Option String) :
    FormsAgree spacing term qualifier name value front opened e outer blocks := by
  obtain ⟨stretch, hform, hleads⟩ :=
    @leads_attributeForm term qualifier name value opened hname
  obtain ⟨stretch', hform', hleads'⟩ :=
    @leads_elementForm term qualifier name value opened hname hvalue spacing
  have hattribute := hfront.append_tag hform hleads (spells_attributeForest hname)
    complete_attributeForest hplain
  have helement := hfront.append_tag hform' hleads' (spells_elementForest hname)
    complete_elementForest hplain
  rw [after_attributeForest hname] at hattribute
  rw [after_elementForest hname] at helement
  have hnonempty : ∀ {form : String} {stretch : List Char}, form.toList = '<' :: stretch →
      (front ++ form).toList ≠ [] := by
    intro form stretch h
    rw [String.toList_append, h]
    exact List.append_ne_nil_of_right_ne_nil _ (List.cons_ne_nil _ _)
  have hblocks := Reaches.readBlocks_congr hattribute (hnonempty hform) helement (hnonempty hform')
  refine ⟨hattribute, helement, hblocks, ?conflicts, ?shared⟩
  case conflicts =>
    intro back calls calls' hcalls hcalls'
    have hschemas : calls.map (fun call => call.2.schema) = calls'.map fun call => call.2.schema :=
      Except.ok.inj (hcalls.symm.trans ((hblocks back).trans hcalls'))
    refine (onePerKey_filterMap (Registry.ofCalls (calls ++ calls')).annotations valuesDiffer
      valueConflictOf rfl).mono (fun key => ?_) fun key c _ hc =>
        hc ▸ tellsValues_valueConflictOf key _
    exact valuesDiffer_iff.trans (Registry.contested_append_iff_of_schemas hschemas)
  case shared =>
    intro namespaceName element calls calls' hplaces hplaces'
    exact Registry.contested_append_iff_of_common hplaces.valueText_mem hplaces'.valueText_mem

/-- The tags in front of the content of a type. -/
def typeFront : String := "<Schema Namespace=\"N\"><EntityType Name=\"E\">"

/-- They lead into the type. -/
theorem reaches_typeFront : Reaches (typeFront.toList ++ ['<']) ⟨true, ["EntityType", "Schema"]⟩
    ⟨[.structured true (.named "E"), .block (.bare (some "N") none)], []⟩ := by
  have hschema : WritableTag "Schema" (written [("Namespace", "N")]) :=
    writableTag_written (by decide +kernel) (by decide +kernel) (by decide)
  have htype : WritableTag "EntityType" (written [("Name", "E")]) :=
    writableTag_written (by decide +kernel) (by decide +kernel) (by decide)
  have hgap : ∀ opened, Leads ⟨false, opened⟩ ['<'] [] ⟨true, opened⟩ := fun opened =>
    @Markup.leads_space opened [] fun _ hc => absurd hc List.not_mem_nil
  have hleads := (((hgap []).trans (Markup.leads_opening hschema)).trans (hgap _)).trans
    ((Markup.leads_opening htype).trans (hgap _))
  have hfront : Markup.dropByteOrderMark (typeFront.toList ++ ['<']) =
      ['<'] ++ (tagContent "Schema" (written [("Namespace", "N")]) ++ ['>']) ++ ['<'] ++
        (tagContent "EntityType" (written [("Name", "E")]) ++ ['>'] ++ ['<']) := by
    decide +kernel
  exact ⟨_, hfront ▸ hleads, by decide +kernel⟩

/-- White space of each kind. -/
def typeSpacing : Spacing where
  afterTag := ['\n']
  beforeValue := [' ']
  afterValue := ['\t']
  beforeEnd := ['\r', '\n']
  isSpace := by simp [Markup.isSpace]

/-- The block of the type when the annotation was read. -/
def typeBlock : SchemaBlock :=
  { SchemaBlock.bare (some "N") none with
    entityTypes := [{ StructuredType.named "E" with
      annotations := [⟨"T", some "q", some "1 < 2"⟩] }] }

/-- **Both forms agree in a type**: the value has a character that must be escaped, and white space
stands wherever it may. Both documents declare the block, which places the annotation. -/
theorem formsAgree_type :
    ("String" ∈ expressionNames ∧ Trimmed "1 < 2".toList ∧
      Reaches (typeFront.toList ++ ['<']) ⟨true, ["EntityType", "Schema"]⟩
        ⟨[.structured true (.named "E"), .block (.bare (some "N") none)], []⟩ ∧
      Outline.annotatedAt (BlockReader.outlines
        ⟨[.structured true (.named "E"), .block (.bare (some "N") none)], []⟩) = none) ∧
    FormsAgree typeSpacing "T" (some "q") "String" "1 < 2" typeFront ["EntityType", "Schema"]
      (.structured true (.named "E")) [.block (.bare (some "N") none)] [] ∧
    ComeFrom [("a.xml", Block.fresh 0 typeBlock)]
      (typeFront ++ attributeForm "T" (some "q") "String" "1 < 2" ++ "</EntityType></Schema>") ∧
    Registry.Places [("a.xml", Block.fresh 0 typeBlock)] "N" "E"
      ⟨"T", some "q", some "1 < 2"⟩ := by
  have hname : "String" ∈ expressionNames := by decide
  have hvalue : Trimmed "1 < 2".toList := by decide +kernel
  refine ⟨⟨hname, hvalue, reaches_typeFront, rfl⟩,
    formsAgree_of_reaches hname hvalue reaches_typeFront rfl _ _ _, ?_, ?_⟩
  · show readBlocks _ = .ok [typeBlock]
    decide +kernel
  · exact ⟨_, List.mem_singleton.mpr rfl, "N", rfl, by decide +kernel⟩

end Agree

end CsdlAudit.Document
