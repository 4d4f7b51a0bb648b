import CsdlAudit.Proofs.Graph.OwnNames
import CsdlAudit.Proofs.Graph.Stored
import CsdlAudit.Proofs.TypeGrammar

/-!
# What a query finds

Two readers go from a name to a node. The build qualifies the name of a type by its dots, without a
look at the nodes: a name with one dot is expanded if a short name stands in front. A query looks at
the nodes first: it tries the id as it stands, then the expansion, then the names of elements.

So they differ on a name with one dot if it is an id and its expansion is another one
(`ReferenceGraph.resolveIn_expanded_iff`). An id begins with the namespace of a block
(`ReferenceGraph.exists_own_of_mem_ids`), and if it has one dot only, the namespace is all that
stands in front of the dot. Hence the two readers agree where no short name is the namespace of a
block (`ReferenceGraph.resolversAgree_build`).

A query goes through the names of elements in some order when it looks for a name in any case. What
is said here holds for every order.
-/

namespace CsdlAudit

open TypeGrammar

namespace ReferenceGraph

/-! ## Steps of a query -/

section Query

variable (g : ReferenceGraph) (listing : List (String × List String)) (query : String)

/-- The node of an id with a short name in place of the namespace. -/
def expanded? : Option String :=
  (Text.splitFirst '.' query).bind fun (head, rest) =>
    (g.aliases.get? head).bind fun namespaceName =>
      if g.hasNode (namespaceName ++ "." ++ rest) then some (namespaceName ++ "." ++ rest)
      else none

/-- The first element with a short name, in any case, as the names are listed. -/
def anyCase? : Option String :=
  (listing.find? fun e => Text.lowercase e.1 == Text.lowercase query).bind (·.2.head?)

/-- **The node that a query names**, where the names of elements are listed in the given order. -/
def resolveIn : Option String :=
  if g.hasNode query then some query
  else
    match g.expanded? query with
    | some id => some id
    | none =>
      match g.byName.get query with
      | id :: _ => some id
      | [] => anyCase? listing query

variable {g listing query}

/-- A query lists the names in their order. -/
theorem resolve_eq_resolveIn : g.resolve query = g.resolveIn g.byName.toList query := rfl

/-- An id names itself. -/
theorem resolveIn_of_mem (h : query ∈ g.ids) : g.resolveIn listing query = some query :=
  if_pos (Graph.hasNode_iff.mpr h)

theorem expanded?_eq_some {head rest namespaceName : String} (hhead : '.' ∉ head.toList)
    (hget : g.aliases.get? head = some namespaceName)
    (hmem : namespaceName ++ "." ++ rest ∈ g.ids) :
    g.expanded? (head ++ "." ++ rest) = some (namespaceName ++ "." ++ rest) := by
  have hcut : Text.splitFirst '.' (head ++ "." ++ rest) = some (head, rest) :=
    Text.splitFirst_eq_some (Text.toList_dotted head rest) hhead
  rw [expanded?, hcut]
  show (g.aliases.get? head).bind _ = _
  rw [hget, Option.bind_some]
  exact if_pos (Graph.hasNode_iff.mpr hmem)

theorem mem_ids_of_expanded? {id : String} (h : g.expanded? query = some id) : id ∈ g.ids := by
  obtain ⟨⟨head, rest⟩, -, h⟩ := Option.bind_eq_some_iff.mp h
  obtain ⟨namespaceName, -, h⟩ := Option.bind_eq_some_iff.mp h
  obtain ⟨hnode, hid⟩ := Option.ite_none_right_eq_some.mp h
  obtain rfl := Option.some.inj hid
  exact Graph.hasNode_iff.mp hnode

/-- **A short name in front is expanded** just when the name is no id as it stands, or the short
name is that of its own namespace. -/
theorem resolveIn_expanded_iff {head rest namespaceName : String} (hhead : '.' ∉ head.toList)
    (hget : g.aliases.get? head = some namespaceName)
    (hmem : namespaceName ++ "." ++ rest ∈ g.ids) :
    g.resolveIn listing (head ++ "." ++ rest) = some (namespaceName ++ "." ++ rest) ↔
      head ++ "." ++ rest ∉ g.ids ∨ head = namespaceName := by
  by_cases hself : head ++ "." ++ rest ∈ g.ids
  · rw [resolveIn_of_mem hself, Option.some.injEq, Text.dotted_inj]
    exact (or_iff_right (not_not_intro hself)).symm
  · have hnode : ¬g.hasNode (head ++ "." ++ rest) = true := fun h => hself (Graph.hasNode_iff.mp h)
    rw [resolveIn, if_neg hnode, expanded?_eq_some hhead hget hmem]
    exact iff_of_true rfl (Or.inl hself)

/-- **What a query finds is a node**, if what is filed under a name are nodes. -/
theorem mem_ids_of_resolveIn (hfiled : ∀ name, g.byName.get name ⊆ g.ids)
    (hlisting : listing.Perm g.byName.toList) {id : String}
    (h : g.resolveIn listing query = some id) : id ∈ g.ids := by
  unfold resolveIn at h
  split at h
  · next hnode =>
    obtain rfl := Option.some.inj h
    exact Graph.hasNode_iff.mp hnode
  · split at h
    · next hexpanded =>
      obtain rfl := Option.some.inj h
      exact mem_ids_of_expanded? hexpanded
    · split at h
      · next first rest hnamed =>
        obtain rfl := Option.some.inj h
        exact hfiled query (hnamed ▸ List.mem_cons_self)
      · -- the listed entries are those of the index
        obtain ⟨e, hfound, hfirst⟩ := Option.bind_eq_some_iff.mp h
        have hentry : e ∈ g.byName.toList := hlisting.subset (List.mem_of_find?_eq_some hfound)
        refine hfiled e.1 ?_
        rw [Index.get_of_mem hentry]
        exact List.mem_of_head? hfirst

end Query

/-! ## Ids and namespaces -/

section Build

variable (options : GraphOptions) (blocks : List (String × SchemaBlock))

/-- **An id begins with the namespace of a block.** -/
theorem exists_own_of_mem_ids {id : String} (h : id ∈ (build options blocks).ids) :
    ∃ e ∈ blocks, ∃ own rest, e.2.ownNamespace? = some own ∧ id = own ++ "." ++ rest := by
  obtain ⟨s, d, ⟨e, he, hs, -⟩, hid⟩ := (mem_ids_build_iff options blocks).mp h
  obtain ⟨own, hown, rfl⟩ := Option.map_eq_some_iff.mp hs
  refine ⟨e, he, own, ?_⟩
  obtain rfl | ⟨m, -, rfl⟩ := hid
  · exact ⟨d.elementName, hown, rfl⟩
  · refine ⟨d.elementName ++ "." ++ m.segment, hown, ?_⟩
    show own ++ "." ++ d.elementName ++ "." ++ m.segment = _
    simp only [String.append_assoc]

/-- In front of the only dot of an id stands the namespace of a block. -/
theorem exists_own_of_dotted {head rest : String} (hhead : '.' ∉ head.toList)
    (hrest : '.' ∉ rest.toList) (h : head ++ "." ++ rest ∈ (build options blocks).ids) :
    ∃ e ∈ blocks, e.2.ownNamespace? = some head := by
  obtain ⟨e, he, own, rest', hown, hid⟩ := exists_own_of_mem_ids options blocks h
  have hchars := congrArg String.toList hid
  rw [Text.toList_dotted, Text.toList_dotted] at hchars
  -- a dot in the namespace would be a second one of the id
  have hdots := congrArg (List.count '.') hchars
  rw [List.count_append, List.count_append, List.count_cons_self, List.count_cons_self,
    List.count_eq_zero_of_not_mem hhead, List.count_eq_zero_of_not_mem hrest] at hdots
  have hdot : '.' ∉ own.toList := List.count_eq_zero.mp (by omega)
  have hspace : head = own :=
    String.toList_injective (Text.front_eq_of_append_cons hhead hdot hchars)
  exact ⟨e, he, hspace ▸ hown⟩

theorem aliases_build : (build options blocks).aliases = declaredAliases blocks :=
  (linked_build options blocks).aliases

/-- What is filed under a name are nodes. -/
theorem get_byName_build_subset (name : String) :
    (build options blocks).byName.get name ⊆ (build options blocks).ids := by
  obtain ⟨additions, hbuild⟩ := isAssembled_build options blocks
  rw [hbuild, Graph.filesNames_assemble additions name]
  exact (List.filter_sublist.map _).subset

/-! ## Two readers of names -/

/-- **No short name is the namespace of a block.** -/
def ShortNamesApart : Prop :=
  ∀ e ∈ blocks, ∀ own, e.2.ownNamespace? = some own → ∀ a ∈ declaredAliases blocks, a.1 ≠ own

/-- **A name means the same to the build and to a query**, where the names of elements are listed in
the given order. -/
structure ResolversAgree (listing : List (String × List String)) : Prop where
  /-- A query lists the names in their order. -/
  resolve_eq : ∀ query, (build options blocks).resolve query =
    (build options blocks).resolveIn (build options blocks).byName.toList query
  /-- If the build takes a dotted name to a node, a query by the name finds the node. -/
  found : ∀ name namespaceName id, isQualifiedName name = true → '.' ∈ name.toList →
    TypeReader.resolve ⟨options.primitiveStart⟩ name namespaceName (declaredAliases blocks) =
      .ok (.element id) →
    id ∈ (build options blocks).ids → (build options blocks).resolveIn listing name = some id
  /-- So it does if a reference of a block is written with the name and leads to the node. -/
  linked : ∀ r ∈ heldReferences blocks, ∀ reference name, r.target = .type reference →
    WrittenWith reference name → isQualifiedName name = true → '.' ∈ name.toList →
    ∀ id ∈ r.meantIds options blocks, id ∈ (build options blocks).ids →
      (build options blocks).resolveIn listing name = some id
  /-- What a query finds is a node. -/
  mem_ids : ∀ query id, (build options blocks).resolveIn listing query = some id →
    id ∈ (build options blocks).ids
  /-- A query by what was found finds it again. -/
  again : ∀ query id, (build options blocks).resolveIn listing query = some id →
    (build options blocks).resolveIn listing id = some id
  /-- A query by the id of a node finds the node. -/
  self : ∀ id ∈ (build options blocks).ids, (build options blocks).resolveIn listing id = some id

variable {options blocks}

/-- A name whose only dot stands behind a short name is no id. -/
theorem ShortNamesApart.notMem_ids (h : ShortNamesApart blocks) {head rest namespaceName : String}
    (hhead : '.' ∉ head.toList) (hrest : '.' ∉ rest.toList)
    (hget : (declaredAliases blocks).get? head = some namespaceName) :
    head ++ "." ++ rest ∉ (build options blocks).ids := by
  intro hmem
  obtain ⟨e, he, hown⟩ := exists_own_of_dotted options blocks hhead hrest hmem
  exact h e he head hown _ (Aliases.mem_of_get?_eq_some hget) rfl

/-- **A query by a dotted name finds what the name means**, if that is a node. -/
theorem ShortNamesApart.resolveIn_eq (h : ShortNamesApart blocks) {name namespaceName id : String}
    (hdot : '.' ∈ name.toList) (hmeans : Means namespaceName (declaredAliases blocks) name id)
    (hid : id ∈ (build options blocks).ids) (listing : List (String × List String)) :
    (build options blocks).resolveIn listing name = some id := by
  cases hmeans with
  | plain hnone => exact absurd hdot hnone
  | short hhead hrest hget =>
    exact (resolveIn_expanded_iff hhead ((aliases_build options blocks).symm ▸ hget) hid).mpr
      (Or.inl (h.notMem_ids hhead hrest hget))
  | unknown _ _ _ => exact resolveIn_of_mem hid
  | long _ _ => exact resolveIn_of_mem hid

/-- What a reference that is written with a dotted identifier is read as. -/
theorem means_of_resolve {r : TypeReader} {reference name namespaceName id : String}
    {aliases : Aliases} (hname : isQualifiedName name = true) (hwritten : WrittenWith reference name)
    (h : r.resolve reference namespaceName aliases = .ok (.element id)) :
    Means namespaceName aliases name id := by
  have htype : elementType reference = .ok name :=
    (elementType_of_dotted (mem_dottedIdentifiers_iff.mpr hname) hwritten).elementType_eq
  simp only [TypeReader.resolve, htype, hname, if_true] at h
  split at h
  · exact absurd h (by simp)
  · simp only [Except.ok.injEq, Referent.element.injEq] at h
    exact h ▸ means_qualify namespaceName aliases name

/-- What a type reference means is what it is read as. -/
theorem resolve_of_mem_meantIds {r : Reference} {reference id : String}
    (htarget : r.target = .type reference) (hid : id ∈ r.meantIds options blocks) :
    TypeReader.resolve ⟨options.primitiveStart⟩ reference r.namespaceName
      (declaredAliases blocks) = .ok (.element id) := by
  simp only [Reference.meantIds, Reference.meant, htarget] at hid
  cases hread : TypeReader.resolve ⟨options.primitiveStart⟩ reference r.namespaceName
      (declaredAliases blocks) with
  | error fault => simp [hread, Except.map] at hid
  | ok referent => cases referent <;> simp_all [Except.map]

/-- **The build and a query agree** on names, in whatever order the names of elements are listed. -/
theorem resolversAgree_build (options : GraphOptions) {blocks : List (String × SchemaBlock)}
    (h : ShortNamesApart blocks) {listing : List (String × List String)}
    (hlisting : listing.Perm (build options blocks).byName.toList) :
    ResolversAgree options blocks listing where
  resolve_eq := fun _ => resolve_eq_resolveIn
  found := by
    intro name namespaceName id hname hdot hresolve
    have hself : WrittenWith name name := .inl
      (Text.trim_eq_iff.mp (Text.trim_eq_self (not_isBlank_of_isQualifiedName hname)))
    exact fun hid => h.resolveIn_eq hdot (means_of_resolve hname hself hresolve) hid listing
  linked := by
    intro r _ reference name htarget hwritten hname hdot id hmeant hid
    have hresolve := resolve_of_mem_meantIds htarget hmeant
    exact h.resolveIn_eq hdot (means_of_resolve hname hwritten hresolve) hid listing
  mem_ids := fun _ _ => mem_ids_of_resolveIn (get_byName_build_subset options blocks) hlisting
  again := fun _ _ hfound => resolveIn_of_mem
    (mem_ids_of_resolveIn (get_byName_build_subset options blocks) hlisting hfound)
  self := fun _ => resolveIn_of_mem

/-- **A query by a short name finds what the build means**, as does one in another case. -/
theorem resolversAgree_undisputed :
    ResolversAgree .standard undisputed (build .standard undisputed).byName.toList.reverse ∧
      TypeReader.resolve ⟨GraphOptions.standard.primitiveStart⟩ "S.X" "A.B"
        (declaredAliases undisputed) = .ok (.element "A.B.X") ∧
      (build .standard undisputed).resolve "S.X" = some "A.B.X" ∧
      (build .standard undisputed).resolve "x" = some "A.B.X" := by
  have happart : ShortNamesApart undisputed := by
    unfold ShortNamesApart
    decide +kernel
  exact ⟨resolversAgree_build .standard happart (List.reverse_perm _), by decide +kernel,
    by decide +kernel, by decide +kernel⟩

end Build

end ReferenceGraph

end CsdlAudit
