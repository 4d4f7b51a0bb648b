import CsdlAudit.Proofs.Graph.Members
import CsdlAudit.Proofs.TypeReference

/-!
# Elements of nested namespaces

The id of a member has a word for its sort in it, so that it differs from the ids of elements in a
namespace that begins with the id of the owner: `N.A.navigation.B` is no `N.A.B`. But the namespace
may go on with that word, or the element may have it for its name. Where names are identifiers these
are the only cases in which the id of a member is that of an element
(`Scope.memberId_eq_elementId_iff`), and they do come about (`ReferenceGraph.taken_by_member`).

Every other element keeps its place: it has a node without an owner, and it owns its own members and
nothing else (`ReferenceGraph.standing_build`).
-/

namespace CsdlAudit

/-! ## Names -/

/-- The name of an element, of an operation without its parameters. -/
def Definition.plainName : Definition → String
  | .action o | .function o => o.name
  | d => d.elementName

/-- **The names in the blocks are identifiers**; a part of a key may be a path of them. -/
structure Named (blocks : List (String × SchemaBlock)) : Prop where
  /-- Elements have identifiers for their names. -/
  elements : ∀ e ∈ blocks, ∀ d ∈ e.2.topLevel, isIdentifier d.plainName = true
  /-- So do members. -/
  members : ∀ e ∈ blocks, ∀ d ∈ e.2.topLevel, ∀ m ∈ d.members, ∀ name ∈ m.name?,
    (Text.splitAll '/' name).all isIdentifier = true

/-- **A member meets an element of a nested namespace**: the element has the name of the member, and
its namespace goes on behind the id of the owner with the word for the sort of member; or the member
has no name, the namespace is the id of the owner, and the element has the word for its name. -/
def Scope.Meets (s : Scope) (d : Definition) (m : Member) (s' : Scope) (d' : Definition) : Prop :=
  m.name? = some d'.elementName ∧ s'.namespaceName = s.elementId d ++ "." ++ m.word ∨
    m.name? = none ∧ s'.namespaceName = s.elementId d ∧ d'.elementName = m.word

instance (s : Scope) (d : Definition) (m : Member) (s' : Scope) (d' : Definition) :
    Decidable (s.Meets d m s' d') :=
  inferInstanceAs (Decidable (_ ∨ _))

theorem continuesName_bracket : continuesName ')' = false := by
  decide +kernel

namespace Member

theorem isIdentifier_word (m : Member) : isIdentifier m.word = true := by
  cases m <;> simp only [word] <;> decide +kernel

/-- A name of a member has no dot. -/
theorem dot_notMem_name {name : String} (h : (Text.splitAll '/' name).all isIdentifier = true) :
    '.' ∉ name.toList := by
  intro hc
  rcases eq_or_continuesName h _ hc with hslash | hname
  · exact absurd hslash (by decide)
  · exact (separate_of_continuesName hname).2.2 rfl

/-- A segment has no bracket in it. -/
theorem bracket_notMem_segment {m : Member}
    (h : ∀ name ∈ m.name?, (Text.splitAll '/' name).all isIdentifier = true) :
    ')' ∉ m.segment.toList := by
  have hword : ')' ∉ m.word.toList := fun hc => ne_true_of_eq_false continuesName_bracket
    (continuesName_of_isIdentifier m.isIdentifier_word _ hc)
  unfold segment
  cases hname : m.name? with
  | none => exact hword
  | some name =>
    have hlast : ')' ∉ name.toList := by
      intro hc
      rcases eq_or_continuesName (h name hname) _ hc with hslash | hcontinues
      · exact absurd hslash (by decide)
      · exact ne_true_of_eq_false continuesName_bracket hcontinues
    simp [hword, hlast]

end Member

namespace Scope

variable {s s' : Scope} {d d' : Definition} {m : Member}

/-- The id of an operation ends with a bracket, and that of a member does not. -/
theorem memberId_ne_signature {o : Operation} (h : ')' ∉ m.segment.toList) :
    s.memberId d m ≠ s'.idOf o.signature := by
  intro heq
  have hne : m.segment.toList ≠ [] := fun hnil =>
    m.segment_ne_empty (String.toList_injective hnil)
  have hlast : (s.memberId d m).toList.getLast? = m.segment.toList.getLast? := by
    rw [memberId, partId, Text.toList_dotted, List.getLast?_append_of_ne_nil _ (by simp),
      List.getLast?_cons_of_ne_nil hne]
  have hbracket : (s'.idOf o.signature).toList.getLast? = some ')' := by
    have hend : ")".toList = [')'] := rfl
    rw [idOf, Operation.signature, ← String.append_assoc, String.toList_append, hend,
      List.getLast?_concat]
  rw [heq, hbracket] at hlast
  exact h (List.mem_of_getLast? hlast.symm)

theorem elementId_eq (s : Scope) (d : Definition) :
    s.elementId d = s.namespaceName ++ "." ++ d.elementName := rfl

theorem memberId_of_unnamed (h : m.name? = none) :
    s.memberId d m = s.elementId d ++ "." ++ m.word := by
  simp only [memberId, partId, Member.segment, h]

theorem memberId_of_named {name : String} (h : m.name? = some name) :
    s.memberId d m = s.elementId d ++ "." ++ m.word ++ "." ++ name := by
  simp only [memberId, partId, Member.segment, h, String.append_assoc]

theorem Meets.memberId_eq (h : s.Meets d m s' d') : s.memberId d m = s'.elementId d' := by
  rcases h with ⟨hname, hfront⟩ | ⟨hname, hfront, hlast⟩
  · rw [memberId_of_named hname, elementId_eq s', hfront]
  · rw [memberId_of_unnamed hname, elementId_eq s', hfront, hlast]

/-- **The only members with the id of an element** are those that meet it. -/
theorem memberId_eq_elementId_iff (hd' : isIdentifier d'.plainName = true)
    (hm : ∀ name ∈ m.name?, (Text.splitAll '/' name).all isIdentifier = true) :
    s.memberId d m = s'.elementId d' ↔ s.Meets d m s' d' := by
  refine ⟨fun heq => ?_, Meets.memberId_eq⟩
  have hdot : '.' ∉ d'.elementName.toList := by
    cases d' with
    | action o | function o =>
      exact absurd heq (memberId_ne_signature (Member.bracket_notMem_segment hm))
    | _ => exact dot_notMem_of_isIdentifier hd'
  -- both ids are cut at their last dot
  cases hname : m.name? with
  | none =>
    have hword := dot_notMem_of_isIdentifier m.isIdentifier_word
    rw [memberId_of_unnamed hname, elementId_eq s', Text.dotted_eq_dotted_iff hword hdot] at heq
    exact Or.inr ⟨hname, heq.1.symm, heq.2.symm⟩
  | some name =>
    have hplain := Member.dot_notMem_name (hm name hname)
    rw [memberId_of_named hname, elementId_eq s', Text.dotted_eq_dotted_iff hplain hdot] at heq
    exact Or.inl ⟨heq.2 ▸ hname, heq.1.symm⟩

end Scope

/-! ## Where elements stand -/

/-- **Some member meets an element.** -/
def Met (blocks : List (String × SchemaBlock)) (s : Scope) (d : Definition) : Prop :=
  ∃ s' d', Declares blocks s' d' ∧ ∃ m ∈ d'.members, s'.Meets d' m s d

/-- **An element has its place in a graph.** -/
structure Graph.Standing (g : Graph) (blocks : List (String × SchemaBlock)) (s : Scope)
    (d : Definition) : Prop where
  /-- It has a node without an owner, of a kind that it is declared with. -/
  node : ∃ n ∈ g.nodes, n.id = s.elementId d ∧ n.parentId = none ∧
    ∃ s' d', Declares blocks s' d' ∧ s'.elementId d' = s.elementId d ∧ d'.kind.nodeKind = n.kind
  /-- The edges to what it contains are those to its members. -/
  contains : ∀ id, ⟨s.elementId d, id, .contains⟩ ∈ g.edges ↔
    ∃ s' d', Declares blocks s' d' ∧ s'.elementId d' = s.elementId d ∧
      ∃ m ∈ d'.members, s'.memberId d' m = id
  /-- The nodes that it owns are those of its members. -/
  owned : ∀ n ∈ g.nodes, n.parentId = some (s.elementId d) →
    ∃ s' d', Declares blocks s' d' ∧ s'.elementId d' = s.elementId d ∧
      ∃ m ∈ d'.members, s'.memberNode d' m = n

namespace ReferenceGraph

variable (options : GraphOptions) {blocks : List (String × SchemaBlock)} {s : Scope}
  {d : Definition}

/-- What an element contains are the members of its declarations, under whatever names. -/
theorem contains_elementId_iff {id : String} :
    ⟨s.elementId d, id, .contains⟩ ∈ (build options blocks).edges ↔
      ∃ s' d', Declares blocks s' d' ∧ s'.elementId d' = s.elementId d ∧
        ∃ m ∈ d'.members, s'.memberId d' m = id := by
  rw [contains_build_iff]
  simp only [eq_comm (b := id), eq_comm (a := s.elementId d)]

theorem exists_declares_of_parentId {n : Node} (hn : n ∈ (build options blocks).nodes)
    (hparent : n.parentId = some (s.elementId d)) :
    ∃ s' d', Declares blocks s' d' ∧ s'.elementId d' = s.elementId d ∧
      ∃ m ∈ d'.members, s'.memberNode d' m = n := by
  obtain ⟨s', d', hd', rfl | ⟨m, hm, rfl⟩⟩ := exists_declaration options blocks hn
  · cases hparent
  · exact ⟨s', d', hd', Option.some.inj hparent, m, hm, rfl⟩

/-- An element that shares its id with no member has a node without an owner. -/
theorem exists_node_of_unshared (h : Declares blocks s d)
    (hunshared : ∀ s' d', Declares blocks s' d' → ∀ m ∈ d'.members,
      s'.memberId d' m ≠ s.elementId d) :
    ∃ n ∈ (build options blocks).nodes, n.id = s.elementId d ∧ n.parentId = none ∧
      ∃ s' d', Declares blocks s' d' ∧ s'.elementId d' = s.elementId d ∧
        d'.kind.nodeKind = n.kind := by
  refine exists_node_of_declarations options blocks ?_ fun s' d' hd' => ⟨fun hid => ?_, ?_⟩
  · exact (mem_ids_build_iff options blocks).mpr ⟨s, d, h, Or.inl rfl⟩
  · exact ⟨rfl, s', d', hd', hid, rfl⟩
  · exact fun m hm hid => absurd hid (hunshared s' d' hd' m hm)

/-- **Where names are identifiers**, the members with the id of an element are those that meet it,
and every element that none of them meets has its place in the graph. -/
theorem standing_build (named : Named blocks) (h : Declares blocks s d) :
    (∀ s' d', Declares blocks s' d' → ∀ m ∈ d'.members,
      (s'.memberId d' m = s.elementId d ↔ s'.Meets d' m s d)) ∧
    (¬Met blocks s d → (build options blocks).Standing blocks s d) := by
  have meets_iff : ∀ s' d', Declares blocks s' d' → ∀ m ∈ d'.members,
      (s'.memberId d' m = s.elementId d ↔ s'.Meets d' m s d) := by
    rintro s' d' ⟨e', he', -, hd'⟩ m hm
    obtain ⟨e, he, -, hd⟩ := h
    exact Scope.memberId_eq_elementId_iff (named.elements e he d hd)
      (named.members e' he' d' hd' m hm)
  refine ⟨meets_iff, fun hmet => ⟨?_, fun id => contains_elementId_iff options, fun n hn =>
    exists_declares_of_parentId options hn⟩⟩
  exact exists_node_of_unshared options h fun s' d' hd' m hm hid =>
    hmet ⟨s', d', hd', m, hm, (meets_iff s' d' hd' m hm).mp hid⟩

/-- A type with properties and navigation properties of the given names, each of its own type. -/
def plainType (name : String) (properties : List String) (navigation : List (String × String)) :
    StructuredType :=
  ⟨name, none, false, false, [],
    properties.map fun p => ⟨p, "Edm.String", true, none, none, []⟩,
    navigation.map fun n => ⟨n.1, n.2, none, false, []⟩, []⟩

/-- The orders of a shop lead to customers, and the type of these stands in a namespace that is
nested in the type of orders. -/
def coexisting : List (String × SchemaBlock) :=
  [("shop.xml",
    { SchemaBlock.bare (some "Shop") none with
      entityTypes := [plainType "Order" [] [("Customer", "Shop.Order.Customer")]] }),
    ("order.xml",
    { SchemaBlock.bare (some "Shop.Order") none with
      entityTypes := [plainType "Customer" ["Name"] []] })]

/-- **The customers have their place**: no member meets their type, that of its own name neither. -/
theorem standing_coexisting :
    let s : Scope := ⟨"Shop.Order", "order.xml"⟩
    let d : Definition := .entityType (plainType "Customer" ["Name"] [])
    Named coexisting ∧ Declares coexisting s d ∧ ¬Met coexisting s d ∧
      (build .standard coexisting).Standing coexisting s d := by
  intro s d
  have named : Named coexisting := ⟨by decide +kernel, by decide +kernel⟩
  have hd : Declares coexisting s d :=
    ⟨coexisting[1], List.getElem_mem _, by decide +kernel, by decide +kernel⟩
  have hmet : ¬Met coexisting s d := by
    have hnone : ∀ e ∈ coexisting, ∀ s' ∈ Scope.of? e, ∀ d' ∈ e.2.topLevel, ∀ m ∈ d'.members,
        ¬s'.Meets d' m s d := by decide +kernel
    rintro ⟨s', d', ⟨e, he, hs', hd'⟩, m, hm, hmeets⟩
    exact hnone e he s' hs' d' hd' m hm hmeets
  exact ⟨named, hd, hmet, (standing_build .standard named hd).2 hmet⟩

/-- A type with a property, and a type of the same name in the namespace that is nested in the
property. -/
def nested : List (String × SchemaBlock) :=
  [("a.xml",
    { SchemaBlock.bare (some "N") none with entityTypes := [plainType "A" ["x"] []] }),
    ("b.xml",
    { SchemaBlock.bare (some "N.A.property") none with entityTypes := [plainType "x" [] []] })]

/-- **The nested type loses its place**: its id is that of the property, and the only node of the id
is the one of the property. -/
theorem taken_by_member :
    let s : Scope := ⟨"N.A.property", "b.xml"⟩
    let d : Definition := .entityType (plainType "x" [] [])
    Named nested ∧ (∀ e ∈ nested, ∀ s' ∈ Scope.of? e, isQualifiedName s'.namespaceName = true) ∧
      Declares nested s d ∧
      (∃ s' d', Declares nested s' d' ∧ ∃ m ∈ d'.members, s'.memberId d' m = s.elementId d) ∧
      (build .standard nested).nodes =
        [⟨"N.A", .entityType, none, "N", "a.xml"⟩,
          ⟨"N.A.property.x", .property, some "N.A", "N", "a.xml"⟩] ∧
      ¬(build .standard nested).Standing nested s d := by
  intro s d
  have hd : Declares nested s d :=
    ⟨nested[1], List.getElem_mem _, by decide +kernel, by decide +kernel⟩
  have howner : Declares nested ⟨"N", "a.xml"⟩ (.entityType (plainType "A" ["x"] [])) :=
    ⟨nested[0], List.getElem_mem _, by decide +kernel, by decide +kernel⟩
  have hshared : ∃ s' d', Declares nested s' d' ∧
      ∃ m ∈ d'.members, s'.memberId d' m = s.elementId d :=
    ⟨_, _, howner, .property "x", by decide +kernel, by decide +kernel⟩
  have hnodes : (build .standard nested).nodes =
      [⟨"N.A", .entityType, none, "N", "a.xml"⟩,
        ⟨"N.A.property.x", .property, some "N.A", "N", "a.xml"⟩] := by decide +kernel
  refine ⟨⟨by decide +kernel, by decide +kernel⟩, by decide +kernel, hd, hshared, hnodes, ?_⟩
  intro hstanding
  obtain ⟨n, hn, hid, hparent, -⟩ := hstanding.node
  rw [hnodes] at hn
  rcases List.mem_pair.mp hn with rfl | rfl
  · exact absurd hid (by decide +kernel)
  · cases hparent

end ReferenceGraph

end CsdlAudit
