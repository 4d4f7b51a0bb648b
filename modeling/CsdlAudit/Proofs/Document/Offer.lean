import CsdlAudit.Proofs.Document.Outline
import CsdlAudit.Proofs.Document.Tree

/-!
# What an open element takes in

An open element takes in what its content offers: a child when it closes, a detail when its tag is
read. In both cases only what belongs to the element counts. `Offer` has one list for each kind of
thing that can be offered, and `OpenElement.gain` says what an element makes of an offer; closing
children and details are offers of a single thing (`OpenElement.attach_eq_gain`,
`OpenElement.addDetail_eq_gain`), and offers one after the other are one offer
(`OpenElement.gain_append`).

What a forest offers is read off it by recursion (`Forest.offer`). The element that a tag opens,
once it has gained the offer of its content, offers the same as the forest of that one element
(`Opened.single_of_ofTag`).
-/

namespace CsdlAudit.Document

/-- **What an element may take in from its content.** -/
structure Offer where
  /-- Entity types. -/
  entityTypes : List StructuredType
  /-- Complex types. -/
  complexTypes : List StructuredType
  /-- Enumeration types. -/
  enumTypes : List EnumType
  /-- Type definitions. -/
  typeDefinitions : List TypeDefinition
  /-- Actions. -/
  actions : List Operation
  /-- Functions. -/
  functions : List Operation
  /-- Terms. -/
  terms : List Term
  /-- Containers. -/
  containers : List EntityContainer
  /-- Annotations from outside. -/
  targets : List AnnotationTarget
  /-- Properties. -/
  properties : List Property
  /-- Navigation properties. -/
  navigationProperties : List NavigationProperty
  /-- Members of an enumeration type. -/
  members : List EnumMember
  /-- Parameters. -/
  parameters : List Parameter
  /-- Return types. -/
  returnTypes : List ReturnType
  /-- Entity sets. -/
  entitySets : List EntitySet
  /-- Singletons. -/
  singletons : List Singleton
  /-- Action imports. -/
  actionImports : List ActionImport
  /-- Function imports. -/
  functionImports : List FunctionImport
  /-- Bindings of an entity set. -/
  bindings : List NavigationBinding
  /-- Annotations. -/
  annotations : List Annotation

namespace Offer

/-- Nothing is offered. -/
def none : Offer :=
  ⟨[], [], [], [], [], [], [], [], [], [], [], [], [], [], [], [], [], [], [], []⟩

/-- One offer and then another. -/
def append (o p : Offer) : Offer where
  entityTypes := o.entityTypes ++ p.entityTypes
  complexTypes := o.complexTypes ++ p.complexTypes
  enumTypes := o.enumTypes ++ p.enumTypes
  typeDefinitions := o.typeDefinitions ++ p.typeDefinitions
  actions := o.actions ++ p.actions
  functions := o.functions ++ p.functions
  terms := o.terms ++ p.terms
  containers := o.containers ++ p.containers
  targets := o.targets ++ p.targets
  properties := o.properties ++ p.properties
  navigationProperties := o.navigationProperties ++ p.navigationProperties
  members := o.members ++ p.members
  parameters := o.parameters ++ p.parameters
  returnTypes := o.returnTypes ++ p.returnTypes
  entitySets := o.entitySets ++ p.entitySets
  singletons := o.singletons ++ p.singletons
  actionImports := o.actionImports ++ p.actionImports
  functionImports := o.functionImports ++ p.functionImports
  bindings := o.bindings ++ p.bindings
  annotations := o.annotations ++ p.annotations

end Offer

/-- **What a forest offers** to the element around it. -/
def Forest.offer (f : Forest) : Offer where
  entityTypes := f.named "EntityType" structuredType
  complexTypes := f.named "ComplexType" structuredType
  enumTypes := f.enumTypes
  typeDefinitions := f.typeDefinitions
  actions := f.named "Action" operation
  functions := f.named "Function" operation
  terms := f.terms
  containers := f.containers
  targets := f.targets
  properties := f.properties
  navigationProperties := f.navigationProperties
  members := f.members
  parameters := f.parameters
  returnTypes := f.returnTypes
  entitySets := f.entitySets
  singletons := f.singletons
  actionImports := f.actionImports
  functionImports := f.functionImports
  bindings := f.bindings
  annotations := f.annotations

namespace Forest

/-- One element with its content. -/
def single (name : String) (as : Attributes) (content : Forest) : Forest :=
  .element name as content .nil

theorem offer_nil : nil.offer = .none := rfl

/-- A forest offers what its first element offers, and then the rest. -/
theorem offer_element (name : String) (as : Attributes) (content rest : Forest) :
    (element name as content rest).offer = (single name as content).offer.append rest.offer := by
  simp only [offer, single, Offer.append, named, enumTypes, typeDefinitions, terms, containers,
    targets, properties, navigationProperties, members, parameters, returnTypes, entitySets,
    singletons, actionImports, functionImports, bindings, annotations, List.append_nil]

end Forest

namespace OpenElement

/-- **What an element makes of an offer**: it takes what belongs to it. -/
def gain (o : Offer) : OpenElement → OpenElement
  | .block b =>
    .block
      { b with
        entityTypes := b.entityTypes ++ o.entityTypes
        complexTypes := b.complexTypes ++ o.complexTypes
        enumTypes := b.enumTypes ++ o.enumTypes
        typeDefinitions := b.typeDefinitions ++ o.typeDefinitions
        actions := b.actions ++ o.actions
        functions := b.functions ++ o.functions
        terms := b.terms ++ o.terms
        entityContainer := o.containers.getLast?.or b.entityContainer
        externalAnnotations := b.externalAnnotations ++ o.targets }
  | .structured e t =>
    .structured e
      { t with
        properties := t.properties ++ o.properties
        navigationProperties := t.navigationProperties ++ o.navigationProperties
        annotations := t.annotations ++ o.annotations }
  | .property p => .property { p with annotations := p.annotations ++ o.annotations }
  | .navigation n => .navigation { n with annotations := n.annotations ++ o.annotations }
  | .enumeration t =>
    .enumeration
      { t with
        members := t.members ++ o.members
        annotations := t.annotations ++ o.annotations }
  | .typeDefinition t => .typeDefinition { t with annotations := t.annotations ++ o.annotations }
  | .operation e op =>
    .operation e
      { op with
        parameters := op.parameters ++ o.parameters
        returnType := o.returnTypes.getLast?.or op.returnType
        annotations := op.annotations ++ o.annotations }
  | .term t => .term { t with annotations := t.annotations ++ o.annotations }
  | .container c =>
    .container
      { c with
        entitySets := c.entitySets ++ o.entitySets
        singletons := c.singletons ++ o.singletons
        actionImports := c.actionImports ++ o.actionImports
        functionImports := c.functionImports ++ o.functionImports
        annotations := c.annotations ++ o.annotations }
  | .entitySet s =>
    .entitySet
      { s with
        navigationBindings := s.navigationBindings ++ o.bindings
        annotations := s.annotations ++ o.annotations }
  | .singleton s => .singleton { s with annotations := s.annotations ++ o.annotations }
  | .actionImport i => .actionImport { i with annotations := i.annotations ++ o.annotations }
  | .functionImport i => .functionImport { i with annotations := i.annotations ++ o.annotations }
  | .target t => .target { t with annotations := t.annotations ++ o.annotations }
  | .applied a pieces => .applied a pieces
  | .other => .other

/-- **What a child offers** when it closes. -/
def offer : OpenElement → Offer
  | .structured true t => { Offer.none with entityTypes := [t] }
  | .structured false t => { Offer.none with complexTypes := [t] }
  | .property p => { Offer.none with properties := [p] }
  | .navigation n => { Offer.none with navigationProperties := [n] }
  | .enumeration t => { Offer.none with enumTypes := [t] }
  | .typeDefinition t => { Offer.none with typeDefinitions := [t] }
  | .operation true o => { Offer.none with actions := [o] }
  | .operation false o => { Offer.none with functions := [o] }
  | .term t => { Offer.none with terms := [t] }
  | .container c => { Offer.none with containers := [c] }
  | .entitySet s => { Offer.none with entitySets := [s] }
  | .singleton s => { Offer.none with singletons := [s] }
  | .actionImport i => { Offer.none with actionImports := [i] }
  | .functionImport i => { Offer.none with functionImports := [i] }
  | .target t => { Offer.none with targets := [t] }
  | .applied a pieces => { Offer.none with annotations := [finished a pieces] }
  | .block _ | .other => .none

theorem gain_none (e : OpenElement) : e.gain .none = e := by
  cases e <;> simp [gain, Offer.none]

/-- **Two offers are one.** -/
theorem gain_append (o p : Offer) (e : OpenElement) :
    e.gain (o.append p) = (e.gain o).gain p := by
  cases e <;>
    simp [gain, Offer.append, List.append_assoc, List.getLast?_append, Option.or_assoc]

/-- **A parent takes in what the closing child offers.** -/
theorem attach_eq_gain (child parent : OpenElement) :
    child.attach parent = parent.gain child.offer := by
  cases child with
  | structured isEntity t =>
    cases isEntity <;> cases parent <;> simp [attach, gain, offer, Offer.none]
  | operation isAction o =>
    cases isAction <;> cases parent <;> simp [attach, gain, offer, Offer.none]
  | applied a pieces => cases parent <;> simp [attach, annotate, gain, offer, Offer.none]
  | _ => cases parent <;> simp [attach, gain, offer, Offer.none]

/-- The element with further parts of its key. -/
def addKeys (paths : List String) : OpenElement → OpenElement
  | .structured e t => .structured e { t with key := t.key ++ paths }
  | e => e

/-- **What an open element has become** when its content was read. -/
def closed (content : Forest) : OpenElement → OpenElement
  | .applied a pieces => .applied a (pieces ++ content.pieces)
  | e => (e.gain content.offer).addKeys content.keyPaths

/-- The block that an open element is. -/
def block? : OpenElement → Option SchemaBlock
  | .block b => some b
  | _ => none

end OpenElement

namespace Opened

/-- What a detail offers to the element in which it stands. A part of a key offers nothing. -/
def detailOffer : Opened → Offer
  | .member m => { Offer.none with members := [m] }
  | .parameter p => { Offer.none with parameters := [p] }
  | .returnType r => { Offer.none with returnTypes := [r] }
  | .binding b => { Offer.none with bindings := [b] }
  | .element _ | .keyPath _ => .none

/-- **An element takes in what a detail offers.** -/
theorem addDetail_eq_gain (detail : Opened) (e : OpenElement) :
    e.addDetail detail = e.gain detail.detailOffer := by
  cases detail <;> cases e <;>
    simp [OpenElement.addDetail, OpenElement.gain, detailOffer, Offer.none]

/-! ## What a tag with its content comes to -/

/-- What it offers to the element in which it stands. -/
def offer (content : Forest) : Opened → Offer
  | .element e => (e.closed content).offer
  | detail => detail.detailOffer

/-- The parts of a key that it leaves to a structured type around it. -/
def keyPaths (content : Forest) : Opened → List String
  | .element (.structured _ _) | .element (.applied _ _) => []
  | .keyPath path => path :: content.keyPaths
  | _ => content.keyPaths

/-- The blocks that are complete with it. -/
def blocks (content : Forest) : Opened → List SchemaBlock
  | .element (.applied _ _) => []
  | .element e => content.blocks ++ (e.closed content).block?.toList
  | _ => content.blocks

/-- **A tag with its content comes to what the forest of the one element says.** -/
theorem single_of_ofTag {name : String} {as : Attributes} {opened : Opened}
    (h : Opened.ofTag name as = .ok opened) (content : Forest) :
    opened.offer content = (Forest.single name as content).offer ∧
      opened.keyPaths content = (Forest.single name as content).keyPaths ∧
      opened.blocks content = (Forest.single name as content).blocks := by
  unfold Opened.ofTag at h
  -- an element asks for two attributes, for one, or for none
  split at h
  all_goals first
    | (obtain rfl := eq_of_two h)
    | (obtain rfl := eq_of_one h)
    | (obtain rfl := Except.ok.inj h)
  -- the name selects one list of the offer, and no list for any other name
  all_goals
    simp [offer, detailOffer, keyPaths, blocks, OpenElement.closed, OpenElement.gain,
      OpenElement.addKeys, OpenElement.offer, OpenElement.block?, Offer.none, Forest.offer,
      Forest.single, Forest.named, Forest.enumTypes, Forest.typeDefinitions, Forest.terms,
      Forest.containers, Forest.targets, Forest.properties, Forest.navigationProperties,
      Forest.members, Forest.parameters, Forest.returnTypes, Forest.entitySets, Forest.singletons,
      Forest.actionImports, Forest.functionImports, Forest.bindings, Forest.annotations,
      Forest.structuredType, Forest.operation, Forest.keyPaths, Forest.blocks, Forest.block,
      SchemaBlock.bare]
  -- any other name
  simp_all only [imp_false, not_false_eq_true, or_self, if_false, List.nil_append,
    List.append_nil, and_self]

end Opened

end CsdlAudit.Document
