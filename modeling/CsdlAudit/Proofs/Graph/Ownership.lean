import CsdlAudit.Proofs.Graph.Closure
import CsdlAudit.Proofs.Graph.Members

/-!
# Owners and members in a graph

In a graph that is built from schema blocks every member has an owner, and the edges from owners to
members are in order (`Graph.Owned`). Two definitions of an element share its members, so a member
may be declared many times, and an id may even be that of a member of one element and that of
another element. The node is the one of the first declaration then, and what it says of its owner is
still true: the owner was there before, it has an edge to the member, and its id is the beginning of
the member's id, so that no chain of owners comes back to its start.
-/

namespace CsdlAudit

open Relation

namespace Graph

/-- **An owner contains a member.** -/
def Owns (g : Graph) (owner member : String) : Prop := ⟨owner, member, .contains⟩ ∈ g.edges

/-- **Owners and members are in order.** -/
structure Owned (g : Graph) : Prop where
  /-- Whatever refers to itself is a node. -/
  self_mem : ∀ id ∈ g.selfIds, id ∈ g.ids
  /-- The nodes with an owner are those of members. -/
  isSome_parentId : ∀ n ∈ g.nodes, n.parentId.isSome = n.kind.isMember
  /-- An owner is a node. -/
  owner_mem : ∀ n ∈ g.nodes, ∀ owner ∈ n.parentId, owner ∈ g.ids
  /-- The id of a member is that of its owner with a dot and more behind it. -/
  isPrefix_id : ∀ n ∈ g.nodes, ∀ owner ∈ n.parentId,
    (owner ++ ".").toList <+: n.id.toList ∧ owner ++ "." ≠ n.id
  /-- An owner has an edge to its member. -/
  owns : ∀ n ∈ g.nodes, ∀ owner ∈ n.parentId, g.Owns owner n.id
  /-- No chain of owners comes back to its start. -/
  acyclic : ∀ id, ¬TransGen g.Owns id id

end Graph

namespace Scope

variable (s : Scope) (d : Definition) (m : Member)

theorem isPrefix_memberId :
    (s.elementId d ++ ".").toList <+: (s.memberId d m).toList ∧
      s.elementId d ++ "." ≠ s.memberId d m := by
  refine ⟨⟨m.segment.toList, (String.toList_append ..).symm⟩, fun h => m.segment_ne_empty ?_⟩
  have hempty : s.elementId d ++ "." ++ "" = s.elementId d ++ "." ++ m.segment := by
    rw [String.append_empty]
    exact h
  exact (String.append_right_inj _ |>.mp hempty).symm

theorem length_elementId_lt : (s.elementId d).length < (s.memberId d m).length := by
  have hdot : ".".length = 1 := rfl
  simp only [memberId, partId, String.length_append, hdot]
  omega

end Scope

namespace ReferenceGraph

variable (options : GraphOptions) (blocks : List (String × SchemaBlock))

/-- **The members of a graph that is built have owners.** -/
theorem owned_build : (build options blocks).Owned where
  self_mem := by
    intro id hid
    obtain ⟨r, hr, rfl, -⟩ := (mem_selfIds_build options blocks).mp hid
    exact (linked_build options blocks).mem_ids.mpr (source_mem_ids_of_held hr)
  isSome_parentId := by
    intro n hn
    obtain ⟨s, d, h, rfl | ⟨m, -, rfl⟩⟩ := exists_declaration options blocks hn
    · exact h.isMember_kind.symm
    · exact m.isMember_kind.symm
  owner_mem := by
    intro n hn owner howner
    obtain ⟨s, d, h, rfl | ⟨m, -, rfl⟩⟩ := exists_declaration options blocks hn
    · exact absurd howner (Option.not_mem_none owner)
    · obtain rfl := Option.some.inj howner
      exact (mem_ids_build_iff options blocks).mpr ⟨s, d, h, Or.inl rfl⟩
  isPrefix_id := by
    intro n hn owner howner
    obtain ⟨s, d, h, rfl | ⟨m, -, rfl⟩⟩ := exists_declaration options blocks hn
    · exact absurd howner (Option.not_mem_none owner)
    · obtain rfl := Option.some.inj howner
      exact s.isPrefix_memberId d m
  owns := by
    intro n hn owner howner
    obtain ⟨s, d, h, rfl | ⟨m, hm, rfl⟩⟩ := exists_declaration options blocks hn
    · exact absurd howner (Option.not_mem_none owner)
    · obtain rfl := Option.some.inj howner
      exact (contains_build_iff options blocks).mpr ⟨s, d, h, rfl, m, hm, rfl⟩
  acyclic := by
    intro id hid
    have step : ∀ {a b}, (build options blocks).Owns a b → a.length < b.length := by
      intro a b hab
      obtain ⟨s, d, -, rfl, m, -, rfl⟩ := (contains_build_iff options blocks).mp hab
      exact s.length_elementId_lt d m
    have chain : ∀ {b}, TransGen (build options blocks).Owns id b → id.length < b.length := by
      intro b hb
      induction hb with
      | single hab => exact step hab
      | tail _ hbc ih => exact ih.trans (step hbc)
    exact Nat.lt_irrefl _ (chain hid)

end ReferenceGraph

/-! ## The additions behind a build -/

namespace Graph

/-- **A graph that was put together by additions.** -/
def IsAssembled (g : Graph) : Prop := ∃ additions, g = assemble additions

theorem isAssembled_empty : empty.IsAssembled := ⟨[], rfl⟩

variable {g : Graph}

theorem IsAssembled.extend (h : g.IsAssembled) (a : Addition) : (g.extend a).IsAssembled := by
  obtain ⟨additions, rfl⟩ := h
  exact ⟨additions ++ [a], by rw [assemble, assemble, List.foldl_append]; rfl⟩

theorem IsAssembled.addNode (h : g.IsAssembled) (n : Node) : (g.addNode n).IsAssembled :=
  h.extend (.node n)

theorem IsAssembled.addEdge (h : g.IsAssembled) (e : Edge) : (g.addEdge e).IsAssembled :=
  h.extend (.edge e)

end Graph

theorem NodeStage.isAssembled_add {s : NodeStage} (h : s.graph.IsAssembled) (d : Declared) :
    (s.add d).graph.IsAssembled := by
  cases d with
  | element n => exact h.addNode n
  | operation plainId n =>
    rw [add]
    split
    · exact h
    · exact h.addNode n
  | part owner n => exact (h.addNode n).addEdge _
  | reference r => exact h

namespace ReferenceGraph

theorem isAssembled_follow {options : GraphOptions} {operations : Index String String}
    {g : ReferenceGraph} (h : g.IsAssembled) (r : Reference) :
    (g.follow options operations r).IsAssembled := by
  unfold follow
  split
  · exact h
  · next targets _ =>
    refine List.foldlRecOn (motive := fun k : ReferenceGraph => k.IsAssembled) targets _ h
      fun k hk target _ => ?_
    unfold link
    split
    · exact hk.addEdge _
    · exact hk

/-- **A build is a sequence of additions.** -/
theorem isAssembled_build (options : GraphOptions) (blocks : List (String × SchemaBlock)) :
    (build options blocks).IsAssembled := by
  have hstage : (NodeStage.ofDeclared (declared blocks)).graph.IsAssembled :=
    List.foldlRecOn (motive := fun s : NodeStage => s.graph.IsAssembled) _ _
      Graph.isAssembled_empty fun _ h d _ => NodeStage.isAssembled_add h d
  exact List.foldlRecOn (motive := fun g : ReferenceGraph => g.IsAssembled) _ _ hstage
    fun _ h r _ => isAssembled_follow h r

end ReferenceGraph

end CsdlAudit
