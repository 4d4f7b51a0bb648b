import CsdlAudit.Proofs.Graph.Build
import CsdlAudit.Proofs.Registry.Target
import CsdlAudit.Proofs.TypeReference

/-!
# What a block's own names mean

A block names its own elements by their plain names, with its namespace in front, or with its short
name in front. As targets of annotations all of these lead into the block's own namespace. As type
references the plain names do, whatever other blocks declare. But the short names of all blocks are
one list, in which the last declaration of a name wins, and a name with one dot is looked up there
first. So the other two forms keep their meaning just as long as the list gives the name to no other
namespace (`ReferenceGraph.ownNames_build`); a block that declares the namespace or the short name
of another block takes its references over: see `overtaken`.
-/

namespace CsdlAudit

/-! ## Short names -/

namespace Aliases

/-- **A name stands for no other namespace** than the given one. -/
def KeptFor (as : Aliases) (name namespaceName : String) : Prop :=
  ∀ m, as.get? name = some m → m = namespaceName

variable {as : Aliases} {name namespaceName : String}

theorem mem_of_get?_eq_some (h : as.get? name = some namespaceName) :
    (name, namespaceName) ∈ as := by
  obtain ⟨a, hfound, rfl⟩ := Option.map_eq_some_iff.mp h
  have hname : a.1 = name := by simpa using List.find?_some hfound
  rw [← hname]
  exact List.mem_reverse.mp (List.mem_of_find?_eq_some hfound)

/-- A declared name stands for some namespace. -/
theorem exists_get?_of_mem (h : (name, namespaceName) ∈ as) : ∃ m, as.get? name = some m := by
  refine Option.isSome_iff_exists.mp ?_
  rw [get?, Option.isSome_map, List.find?_isSome]
  exact ⟨_, List.mem_reverse.mpr h, beq_self_eq_true name⟩

/-- What stands in front of a dot keeps its meaning as a namespace. -/
theorem getD_get?_self_iff : (as.get? name).getD name = name ↔ as.KeptFor name name := by
  unfold KeptFor
  cases as.get? name <;> simp

/-- What stands in front of a dot keeps its meaning as a declared short name. -/
theorem getD_get?_iff_of_mem (h : (name, namespaceName) ∈ as) :
    (as.get? name).getD name = namespaceName ↔ as.KeptFor name namespaceName := by
  obtain ⟨m, hm⟩ := exists_get?_of_mem h
  simp [KeptFor, hm]

end Aliases

theorem mem_declaredAliases {blocks : List (String × SchemaBlock)} {name namespaceName : String} :
    (name, namespaceName) ∈ declaredAliases blocks ↔
      ∃ e ∈ blocks, e.2.aliasName = some name ∧ e.2.namespaceName = some namespaceName := by
  rw [declaredAliases, List.mem_filterMap]
  refine exists_congr fun e => and_congr_right fun _ => ?_
  obtain ⟨file, b⟩ := e
  dsimp only
  cases b.aliasName with
  | none => simp
  | some a => cases b.namespaceName <;> simp

/-- A name is kept for a namespace if each block that declares it has the namespace. -/
theorem keptFor_declaredAliases {blocks : List (String × SchemaBlock)}
    {name namespaceName : String} (h : ∀ e ∈ blocks, e.2.aliasName = some name →
      ∀ m, e.2.namespaceName = some m → m = namespaceName) :
    (declaredAliases blocks).KeptFor name namespaceName := by
  intro m hm
  obtain ⟨e, he, hname, hspace⟩ := mem_declaredAliases.mp (Aliases.mem_of_get?_eq_some hm)
  exact h e he hname m hspace

/-! ## What becomes of a reference -/

section Reference

variable {options : GraphOptions} {blocks : List (String × SchemaBlock)} {r : Reference}

/-- **A type reference to a qualified name** means what the name is qualified to. -/
theorem Reference.meantIds_of_type {name : String} (htarget : r.target = .type name)
    (hname : isQualifiedName name = true)
    (hprimitive : TypeReader.isPrimitive ⟨options.primitiveStart⟩ name = false) :
    r.meantIds options blocks =
      [TypeReader.qualify r.namespaceName (declaredAliases blocks) name] := by
  simp only [meantIds, meant, htarget, TypeReader.resolve_eq_qualify hname hprimitive, Except.map]

/-- A type reference to a plain name means an element of the namespace in which it stands. -/
theorem Reference.meantIds_plain {name : String} (htarget : r.target = .type name)
    (hname : isIdentifier name = true) (hstart : '.' ∈ options.primitiveStart.toList) :
    r.meantIds options blocks = [r.namespaceName ++ "." ++ name] := by
  rw [meantIds_of_type htarget (isQualifiedName_of_isIdentifier hname)
      (TypeReader.isPrimitive_eq_false hname hstart),
    TypeReader.qualify_plain (dot_notMem_of_isIdentifier hname)]

/-- **A type reference to a plain name behind a dot** means an element of what stands in front, if
that has a dot, and otherwise of the namespace that it stands for. -/
theorem Reference.meantIds_dotted {front name : String}
    (htarget : r.target = .type (front ++ "." ++ name)) (hfront : isQualifiedName front = true)
    (hname : isIdentifier name = true)
    (hprimitive : TypeReader.isPrimitive ⟨options.primitiveStart⟩ (front ++ "." ++ name) = false)
    (namespaceName : String) :
    r.meantIds options blocks = [namespaceName ++ "." ++ name] ↔
      (if '.' ∈ front.toList then front else ((declaredAliases blocks).get? front).getD front) =
        namespaceName := by
  rw [meantIds_of_type htarget (isQualifiedName_append hfront hname) hprimitive,
    TypeReader.qualify_dotted (dot_notMem_of_isIdentifier hname), List.singleton_inj,
    Text.dotted_inj]

/-- **A graph takes a reference from a node to an id**: by an edge, as a self reference, or as one
that leads nowhere. -/
def ReferenceGraph.Takes (g : ReferenceGraph) (source id : String) : Prop :=
  g.Leads source id ∨ (id = source ∧ id ∈ g.selfIds) ∨
    ∃ u ∈ g.unresolved, u.source = source ∧ u.target = id

/-- **The graph that is built takes every reference to what it means.** -/
theorem ReferenceGraph.takes_build (hr : r ∈ heldReferences blocks) {id : String}
    (hid : id ∈ r.meantIds options blocks) : (build options blocks).Takes r.source id := by
  by_cases hmem : id ∈ (build options blocks).ids
  · by_cases hself : id = r.source
    · exact Or.inr (Or.inl ⟨hself,
        (mem_selfIds_build options blocks).mpr ⟨r, hr, hself, hid⟩⟩)
    · exact Or.inl ((leads_build options blocks).mpr
        (Or.inr ⟨r, hr, rfl, hid, Ne.symm hself, hmem⟩))
  · -- an id without a node is reported
    have h := linked_build options blocks
    have hnode : (staged blocks).hasNode id = false :=
      Bool.eq_false_iff.mpr fun hn => hmem (h.mem_ids.mpr (Graph.hasNode_iff.mp hn))
    refine Or.inr (Or.inr
      ⟨(staged blocks).report options.suggestSimilar (r, id), ?_, rfl, rfl⟩)
    rw [h.unresolved]
    refine List.mem_append_right _ (List.mem_map_of_mem (List.mem_filter.mpr ⟨?_, ?_⟩))
    · exact (mem_meanings options blocks).mpr ⟨hr, hid⟩
    · rw [hnode, Bool.not_false]

end Reference

/-! ## Own names -/

/-- **A target behind a block's short name** leads into the block's namespace. -/
theorem splitTarget_short {own short name : String} (hshort : isIdentifier short = true)
    (hname : isIdentifier name = true) :
    splitTarget (short ++ "." ++ name) own (some short) = (own, name) := by
  have hfound : afterOwnName? short (short ++ "." ++ name) = some name :=
    afterOwnName?_eq_some_iff.mpr rfl
  by_cases hstands : StandsBefore own (short ++ "." ++ name)
  · -- the namespace is the short name, which has no dot
    rcases (standsBefore_dotted_iff (dot_notMem_of_isIdentifier hname)).mp hstands with
      rfl | ⟨rest, rfl⟩
    · exact splitTarget_own own name _
    · refine absurd ?_ (dot_notMem_of_isIdentifier hshort)
      rw [Text.toList_dotted]
      exact List.mem_append_right _ List.mem_cons_self
  · rw [splitTarget, afterOwnName?_eq_none hstands, Option.bind_some, hfound]

section OwnNames

variable (options : GraphOptions) (blocks : List (String × SchemaBlock))

/-- **What the names of an element mean in its own block**, among given blocks. -/
structure OwnNames (b : SchemaBlock) (own name : String) : Prop where
  /-- A reference by the plain name means the element. -/
  plain : ∀ r : Reference, r.namespaceName = own → r.target = .type name →
    r.meantIds options blocks = [own ++ "." ++ name]
  /-- A reference with the namespace in front does just when the namespace has a dot or is no short
  name of another one. -/
  full : TypeReader.isPrimitive ⟨options.primitiveStart⟩ (own ++ "." ++ name) = false →
    ∀ r : Reference, r.namespaceName = own → r.target = .type (own ++ "." ++ name) →
      (r.meantIds options blocks = [own ++ "." ++ name] ↔
        '.' ∈ own.toList ∨ (declaredAliases blocks).KeptFor own own)
  /-- A reference with the block's short name in front does just when the name is no short name of
  another namespace. -/
  short : ∀ a, b.aliasName = some a → isIdentifier a = true →
    TypeReader.isPrimitive ⟨options.primitiveStart⟩ (a ++ "." ++ name) = false →
    ∀ r : Reference, r.namespaceName = own → r.target = .type (a ++ "." ++ name) →
      (r.meantIds options blocks = [own ++ "." ++ name] ↔
        (declaredAliases blocks).KeptFor a own)
  /-- A name is no short name of another namespace if no block of one declares it. -/
  kept : ∀ a, (∀ e ∈ blocks, e.2.aliasName = some a →
    ∀ m, e.2.namespaceName = some m → m = own) → (declaredAliases blocks).KeptFor a own
  /-- The graph takes a reference to what it means. -/
  takes : ∀ r ∈ heldReferences blocks, ∀ id ∈ r.meantIds options blocks,
    (ReferenceGraph.build options blocks).Takes r.source id
  /-- A target with the namespace in front leads to the element. -/
  fullTarget : splitTarget (own ++ "." ++ name) own b.aliasName = (own, name)
  /-- A target with the block's short name in front leads to the element. -/
  shortTarget : ∀ a, b.aliasName = some a → isIdentifier a = true →
    splitTarget (a ++ "." ++ name) own b.aliasName = (own, name)

variable {options blocks}

/-- **What a block's own names mean**, whatever the other blocks declare. The names of primitive
types begin with a dotted text. -/
theorem ownNames_of_mem {file : String} {b : SchemaBlock} {own name : String}
    (hb : (file, b) ∈ blocks) (hown : b.ownNamespace? = some own)
    (hspace : isQualifiedName own = true) (hname : isIdentifier name = true)
    (hstart : '.' ∈ options.primitiveStart.toList) : OwnNames options blocks b own name where
  plain := by
    rintro r rfl htarget
    exact Reference.meantIds_plain htarget hname hstart
  full := by
    intro hprimitive r _ htarget
    rw [Reference.meantIds_dotted htarget hspace hname hprimitive]
    by_cases hdot : '.' ∈ own.toList
    · simp [hdot]
    · rw [if_neg hdot, Aliases.getD_get?_self_iff, or_iff_right hdot]
  short := by
    intro a ha hshort hprimitive r _ htarget
    have hmem : (a, own) ∈ declaredAliases blocks :=
      mem_declaredAliases.mpr ⟨_, hb, ha, (SchemaBlock.ownNamespace?_eq_some_iff.mp hown).1⟩
    rw [Reference.meantIds_dotted htarget (isQualifiedName_of_isIdentifier hshort) hname hprimitive,
      if_neg (dot_notMem_of_isIdentifier hshort), Aliases.getD_get?_iff_of_mem hmem]
  kept := fun _ => keptFor_declaredAliases
  takes := fun _ hr _ hid => ReferenceGraph.takes_build hr hid
  fullTarget := splitTarget_own own name b.aliasName
  shortTarget := by
    intro a ha hshort
    rw [ha]
    exact splitTarget_short hshort hname

end OwnNames

/-- A block with an entity type and a term that refers to it. -/
def referring (namespaceName : String) (aliasName : Option String) (reference : String) :
    SchemaBlock :=
  { SchemaBlock.bare (some namespaceName) aliasName with
    entityTypes := [StructuredType.named "X"]
    terms := [⟨"T", reference, none, [], []⟩] }

/-- A block of a dotted namespace refers by its short name, and another one has its own. -/
def undisputed : List (String × SchemaBlock) :=
  [("a.xml", referring "A.B" (some "S") "S.X"), ("b.xml", .bare (some "Other") (some "A"))]

/-- **The short name is kept**, so the reference means the element. -/
theorem ownNames_undisputed :
    OwnNames .standard undisputed (referring "A.B" (some "S") "S.X") "A.B" "X" ∧
      (declaredAliases undisputed).KeptFor "S" "A.B" ∧
      (heldReferences undisputed).map (Reference.meantIds .standard undisputed) = [["A.B.X"]] ∧
      (ReferenceGraph.build .standard undisputed).hasEdge "A.B.T" "A.B.X" = true := by
  have h : OwnNames .standard undisputed (referring "A.B" (some "S") "S.X") "A.B" "X" :=
    ownNames_of_mem List.mem_cons_self rfl (by decide) (by decide) (by decide)
  have hblocks : ∀ e ∈ undisputed, e.2.aliasName = some "S" →
      ∀ m, e.2.namespaceName = some m → m = "A.B" := by
    simp [undisputed, referring, SchemaBlock.bare]
  exact ⟨h, h.kept "S" hblocks, by decide +kernel, by decide +kernel⟩

/-- Two blocks refer to their own elements, one by its namespace and one by its short name; later
blocks declare these as short names of another namespace. -/
def overtaken : List (String × SchemaBlock) :=
  [("a.xml", referring "A" none "A.X"), ("b.xml", referring "B.C" (some "S") "S.X"),
    ("c.xml", .bare (some "Other") (some "A")), ("d.xml", .bare (some "Other") (some "S"))]

/-- **Later blocks take the references over**: none of them means the element any more, though as
targets of annotations the same names do. -/
theorem overtaken_by_later_blocks :
    (heldReferences overtaken).map (fun r => (r.namespaceName, r.target)) =
        [("A", .type "A.X"), ("B.C", .type "S.X")] ∧
      (heldReferences overtaken).map (Reference.meantIds .standard overtaken) =
        [["Other.X"], ["Other.X"]] ∧
      (ReferenceGraph.build .standard overtaken).unresolved.map (fun u => (u.source, u.target)) =
        [("A.T", "Other.X"), ("B.C.T", "Other.X")] ∧
      splitTarget "A.X" "A" none = ("A", "X") ∧
      splitTarget "S.X" "B.C" (some "S") = ("B.C", "X") := by
  decide +kernel

end CsdlAudit
