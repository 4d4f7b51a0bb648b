import Mathlib.Data.List.Perm.Subperm
import Mathlib.Order.WellFounded
import CsdlAudit.Proofs.Graph.Components
import CsdlAudit.Proofs.Graph.Order
import CsdlAudit.Proofs.Machine

/-!
# What the closures contain

A closure can be gathered by a machine with a stack: it takes an id from the stack, passes over it
if it was visited, and otherwise notes it and puts its neighbours on the stack, also those that were
visited or stand there already. What holds at every moment (`Spreading`) is that whatever is reached
from the start is reached from the stack or noted. So the machine ends with what the start reaches,
in whatever order neighbours are listed (`Spreading.answers`), and that is the closure.

`Graph.closuresReach_assemble` says what the closures are and how they hang together: a graph and
the graph turned round tell the same story, and where there is no cycle every chain of dependencies
ends at an id that depends on nothing.
-/

namespace CsdlAudit

open Relation

/-! ## Gathering a closure -/

/-- **A moment of the gathering.** -/
structure SpreadState where
  /-- The ids to look at next. -/
  stack : List String
  /-- The ids that were visited. -/
  visited : List String
  /-- What was gathered, ascending. -/
  result : List String

/-- **One step of the gathering**, with the neighbours of each id given. -/
def spreadStep (next : String → List String) (start : String) (s : SpreadState) :
    SpreadState ⊕ List String :=
  match s.stack with
  | [] => .inr s.result
  | id :: below =>
    if id ∈ s.visited then .inl { s with stack := below }
    else
      .inl {
        stack := next id ++ below
        visited := id :: s.visited
        result := if id = start then s.result else Ascending.insert id s.result }

/-- How the gathering begins: with its answer, if the id is unknown. -/
def Graph.spreadStart (g : Graph) (start : String) : SpreadState ⊕ List String :=
  if g.hasNode start then .inl ⟨[start], [], []⟩ else .inr []

/-- **What holds at every moment of the gathering.** -/
structure Spreading (g : Graph) (next : String → List String) (start : String) (s : SpreadState) :
    Prop where
  /-- The ids on the stack are reached. -/
  stack_reached : ∀ x ∈ s.stack, ReflTransGen (fun a b => b ∈ next a) start x
  /-- The ids that were visited are reached. -/
  visited_reached : ∀ x ∈ s.visited, ReflTransGen (fun a b => b ∈ next a) start x
  /-- The start is not forgotten. -/
  start_mem : start ∈ s.visited ∨ start ∈ s.stack
  /-- No neighbour of an id that was visited is forgotten. -/
  closed : ∀ x ∈ s.visited, ∀ y ∈ next x, y ∈ s.visited ∨ y ∈ s.stack
  /-- No id is visited twice. -/
  nodup_visited : s.visited.Nodup
  /-- Nodes only are visited. -/
  visited_subset : s.visited ⊆ g.ids
  /-- Nodes only are on the stack. -/
  stack_subset : s.stack ⊆ g.ids
  /-- What is gathered ascends. -/
  ascending : s.result.Pairwise (compare · · = .lt)
  /-- What was visited is gathered, the start apart. -/
  mem_result : ∀ {y}, y ∈ s.result ↔ y ∈ s.visited ∧ y ≠ start

namespace Spreading

variable {g : Graph} {next : String → List String} {start id : String} {s : SpreadState}
  {visited result below : List String}

theorem initial (h : start ∈ g.ids) : Spreading g next start ⟨[start], [], []⟩ where
  stack_reached := by
    intro x hx
    rw [List.mem_singleton.mp hx]
  visited_reached := fun _ hx => absurd hx List.not_mem_nil
  start_mem := Or.inr (List.mem_singleton_self start)
  closed := fun _ hx => absurd hx List.not_mem_nil
  nodup_visited := List.nodup_nil
  visited_subset := List.nil_subset _
  stack_subset := List.cons_subset.mpr ⟨h, List.nil_subset _⟩
  ascending := List.Pairwise.nil
  mem_result := by simp

/-- An id that was visited is passed over. -/
theorem pass (h : Spreading g next start ⟨id :: below, visited, result⟩) (hid : id ∈ visited) :
    Spreading g next start ⟨below, visited, result⟩ where
  stack_reached := fun x hx => h.stack_reached x (List.mem_cons_of_mem id hx)
  visited_reached := h.visited_reached
  start_mem := by
    rcases h.start_mem with hv | hs
    · exact Or.inl hv
    · exact (List.mem_cons.mp hs).imp_left fun e => by rwa [e]
  closed := by
    intro x hx y hy
    rcases h.closed x hx y hy with hv | hs
    · exact Or.inl hv
    · exact (List.mem_cons.mp hs).imp_left fun e => by rwa [e]
  nodup_visited := h.nodup_visited
  visited_subset := h.visited_subset
  stack_subset := (List.cons_subset.mp h.stack_subset).2
  ascending := h.ascending
  mem_result := h.mem_result

/-- An id is visited, and its neighbours are put on the stack. -/
theorem visit (hids : ∀ a, next a ⊆ g.ids)
    (h : Spreading g next start ⟨id :: below, visited, result⟩) (hid : id ∉ visited) :
    Spreading g next start ⟨next id ++ below, id :: visited,
      if id = start then result else Ascending.insert id result⟩ where
  stack_reached := by
    intro x hx
    rcases List.mem_append.mp hx with hx | hx
    · exact (h.stack_reached id List.mem_cons_self).tail hx
    · exact h.stack_reached x (List.mem_cons_of_mem id hx)
  visited_reached := by
    intro x hx
    rcases List.mem_cons.mp hx with rfl | hx
    · exact h.stack_reached x List.mem_cons_self
    · exact h.visited_reached x hx
  start_mem := by
    rcases h.start_mem with hv | hs
    · exact Or.inl (List.mem_cons_of_mem id hv)
    · rcases List.mem_cons.mp hs with rfl | hs
      · exact Or.inl List.mem_cons_self
      · exact Or.inr (List.mem_append_right _ hs)
  closed := by
    intro x hx y hy
    rcases List.mem_cons.mp hx with rfl | hx
    · exact Or.inr (List.mem_append_left _ hy)
    · rcases h.closed x hx y hy with hv | hs
      · exact Or.inl (List.mem_cons_of_mem id hv)
      · rcases List.mem_cons.mp hs with rfl | hs
        · exact Or.inl List.mem_cons_self
        · exact Or.inr (List.mem_append_right _ hs)
  nodup_visited := List.nodup_cons.mpr ⟨hid, h.nodup_visited⟩
  visited_subset :=
    List.cons_subset.mpr ⟨h.stack_subset List.mem_cons_self, h.visited_subset⟩
  stack_subset :=
    List.append_subset.mpr ⟨hids id, (List.cons_subset.mp h.stack_subset).2⟩
  ascending := by
    show (if id = start then result else Ascending.insert id result).Pairwise _
    split
    · exact h.ascending
    · exact Ascending.pairwise_insert h.ascending
  mem_result := by
    intro y
    show y ∈ (if id = start then result else Ascending.insert id result) ↔
      y ∈ id :: visited ∧ y ≠ start
    split
    · next hstart =>
      rw [h.mem_result, List.mem_cons, hstart]
      exact and_congr_left fun hne => (or_iff_right hne).symm
    · next hne =>
      rw [Ascending.mem_insert, h.mem_result, List.mem_cons, or_and_right]
      exact or_congr_left (iff_self_and.mpr fun e => e ▸ hne)

/-- When the stack is empty, all that the start reaches is gathered. -/
theorem mem_result_iff (h : Spreading g next start ⟨[], visited, result⟩) {y : String} :
    y ∈ result ↔ y ≠ start ∧ TransGen (fun a b => b ∈ next a) start y := by
  have hall : ∀ {x}, ReflTransGen (fun a b => b ∈ next a) start x → x ∈ visited := by
    intro x hx
    induction hx with
    | refl => exact h.start_mem.resolve_right List.not_mem_nil
    | tail _ hbc ih => exact (h.closed _ ih _ hbc).resolve_right List.not_mem_nil
  rw [h.mem_result, and_comm]
  refine and_congr_right fun hne => ⟨fun hy => ?_, fun hy => hall hy.to_reflTransGen⟩
  exact (reflTransGen_iff_eq_or_transGen.mp (h.visited_reached y hy)).resolve_left hne

/-- **The gathering comes to its end with the closure**: each step takes an id from the stack or
visits one more node. -/
theorem answers {as : Arrows} (has : ∀ a b, b ∈ next a ↔ (a, b) ∈ as)
    (hids : ∀ a, next a ⊆ g.ids) (hstart : start ∈ g.ids) {stack visited result : List String}
    (h : Spreading g next start ⟨stack, visited, result⟩) :
    Answers (spreadStep next start) (.inl ⟨stack, visited, result⟩) (g.closure as start) := by
  match stack with
  | [] =>
    have hr : (fun a b => b ∈ next a) = fun a b => (a, b) ∈ as :=
      funext fun a => funext fun b => propext (has a b)
    have hresult : result = g.closure as start := by
      refine Ascending.eq_of_mem_iff (h.ascending.imp Std.LawfulLTCmp.eq_lt_iff_lt.mp)
        (Graph.pairwise_closure g as start) fun y => ?_
      rw [h.mem_result_iff, Graph.mem_closure fun hab => hids _ ((has _ _).mpr hab), hr,
        and_iff_right hstart]
    exact .of_answer (by rw [hresult]; rfl)
  | id :: below =>
    by_cases hid : id ∈ visited
    · exact .of_step (by simp [spreadStep, hid]) (answers has hids hstart (h.pass hid))
    · have hvisit := h.visit hids hid
      have hless : visited.length < g.ids.length :=
        (List.subperm_of_subset hvisit.nodup_visited hvisit.visited_subset).length_le
      exact .of_step (by simp [spreadStep, hid]) (answers has hids hstart hvisit)
termination_by (g.ids.length - visited.length, stack.length)

end Spreading

/-! ## The closures -/

namespace Graph

variable {g : Graph}

/-- **No node reaches itself.** -/
def Acyclic (g : Graph) : Prop := ∀ a, ¬g.Reaches a a

theorem mem_leafDependencies {x y : String} :
    y ∈ g.leafDependencies x ↔ y ∈ g.allDependencies x ∧ ∀ z, ¬g.Leads y z := by
  rw [leafDependencies, List.mem_filter, List.isEmpty_iff, List.eq_nil_iff_forall_not_mem]
  simp only [mem_targets]

namespace WellFormed

variable (h : g.WellFormed)

include h

/-- **The dependencies are gathered**, in whatever order neighbours are listed. -/
theorem answers_allDependencies {next : String → List String}
    (hnext : ∀ a b, b ∈ next a ↔ g.Leads a b) (x : String) :
    Answers (spreadStep next x) (g.spreadStart x) (g.allDependencies x) := by
  unfold spreadStart
  split
  · next hx =>
    refine Spreading.answers (fun a b => (hnext a b).trans mem_arrows.symm) (fun a b hb => ?_)
      (hasNode_iff.mp hx) (Spreading.initial (hasNode_iff.mp hx))
    exact h.target_mem ((hnext a b).mp hb)
  · next hx =>
    rw [allDependencies, closure, if_neg hx]
    exact Answers.done []

/-- **The dependents are gathered**, in whatever order neighbours are listed. -/
theorem answers_allDependents {next : String → List String}
    (hnext : ∀ a b, b ∈ next a ↔ g.Leads b a) (x : String) :
    Answers (spreadStep next x) (g.spreadStart x) (g.allDependents x) := by
  unfold spreadStart
  split
  · next hx =>
    refine Spreading.answers (fun a b => (hnext a b).trans mem_reversed.symm) (fun a b hb => ?_)
      (hasNode_iff.mp hx) (Spreading.initial (hasNode_iff.mp hx))
    exact h.source_mem ((hnext a b).mp hb)
  · next hx =>
    rw [allDependents, closure, if_neg hx]
    exact Answers.done []

/-- **Where there is no cycle, whoever depends on anything depends on something that depends on
nothing**: of all that is reached, what stands first in an order leads nowhere. -/
theorem leafDependencies_ne_nil (hacyclic : g.Acyclic) {x : String}
    (hx : g.allDependencies x ≠ []) : g.leafDependencies x ≠ [] := by
  obtain ⟨list, hlist⟩ := Option.isSome_iff_exists.mp ((isSome_order?_iff h).mpr hacyclic)
  obtain ⟨-, hbefore⟩ := order?_spec h hlist
  obtain ⟨y, hy⟩ := List.exists_mem_of_ne_nil _ hx
  have hreached : {z | g.Reaches x z}.Nonempty := ⟨y, (h.mem_allDependencies.mp hy).2⟩
  obtain ⟨z, hxz, hfirst⟩ := (measure list.idxOf).wf.has_min _ hreached
  have hleaf : ∀ w, ¬g.Leads z w := fun w hzw => hfirst w (hxz.tail hzw) (hbefore hzw)
  have hne : z ≠ x := fun e => hacyclic x (e ▸ hxz)
  exact List.ne_nil_of_mem
    (mem_leafDependencies.mpr ⟨h.mem_allDependencies.mpr ⟨hne, hxz⟩, hleaf⟩)

end WellFormed

/-- An unknown id has an empty closure. -/
theorem closure_eq_nil {as : Arrows} {x : String} (hx : x ∉ g.ids) : g.closure as x = [] := by
  rw [closure, if_neg (hasNode_iff.not.mpr hx)]

/-- **What the closures of a graph are.** -/
structure ClosuresReach (g : Graph) : Prop where
  /-- The dependencies of an id are the other ids to which a walk leads from it. -/
  dependencies : ∀ x y, y ∈ g.allDependencies x ↔ y ≠ x ∧ g.Reaches x y
  /-- Its dependents are the other ids from which a walk leads to it. -/
  dependents : ∀ x y, y ∈ g.allDependents x ↔ y ≠ x ∧ g.Reaches y x
  /-- An unknown id has none of either. -/
  unknown : ∀ x, x ∉ g.ids →
    g.allDependencies x = [] ∧ g.allDependents x = [] ∧ g.leafDependencies x = []
  /-- Nothing is listed twice: both ascend. -/
  ascending : ∀ x, (g.allDependencies x).Pairwise (· < ·) ∧ (g.allDependents x).Pairwise (· < ·)
  /-- An id is a dependency of another just when that one is a dependent of it. -/
  converse : ∀ x y, y ∈ g.allDependencies x ↔ x ∈ g.allDependents y
  /-- The dependencies of a dependency are dependencies, the start apart. -/
  dependencies_trans : ∀ x y z, y ∈ g.allDependencies x → z ∈ g.allDependencies y → z ≠ x →
    z ∈ g.allDependencies x
  /-- The dependents of a dependent are dependents, the start apart. -/
  dependents_trans : ∀ x y z, y ∈ g.allDependents x → z ∈ g.allDependents y → z ≠ x →
    z ∈ g.allDependents x
  /-- The leaves are the dependencies from which no edge leads on. -/
  leaves : ∀ x y, y ∈ g.leafDependencies x ↔ y ∈ g.allDependencies x ∧ ∀ z, ¬g.Leads y z
  /-- Where there is no cycle, there is a leaf if there is any dependency. -/
  exists_leaf : g.Acyclic → ∀ x, g.allDependencies x ≠ [] → g.leafDependencies x ≠ []
  /-- The dependencies are gathered step by step, and the gathering comes to an end with them and
  with nothing else, in whatever order neighbours are listed. -/
  answers_dependencies : ∀ next : String → List String, (∀ a b, b ∈ next a ↔ g.Leads a b) →
    ∀ x found, Answers (spreadStep next x) (g.spreadStart x) found ↔ found = g.allDependencies x
  /-- So are the dependents. -/
  answers_dependents : ∀ next : String → List String, (∀ a b, b ∈ next a ↔ g.Leads b a) →
    ∀ x found, Answers (spreadStep next x) (g.spreadStart x) found ↔ found = g.allDependents x

/-- **The closures are reachability on every graph**, in whatever order it was put together. -/
theorem closuresReach_assemble (additions : List Addition) :
    (assemble additions).ClosuresReach := by
  have h := wellFormed_assemble additions
  exact {
    dependencies := fun _ _ => h.mem_allDependencies
    dependents := fun _ _ => h.mem_allDependents
    unknown := by
      intro x hx
      have hnone : (assemble additions).allDependencies x = [] := closure_eq_nil hx
      refine ⟨hnone, closure_eq_nil hx, ?_⟩
      rw [leafDependencies, hnone]
      rfl
    ascending := fun x => ⟨pairwise_closure _ _ x, pairwise_closure _ _ x⟩
    converse := by
      intro x y
      rw [h.mem_allDependencies, h.mem_allDependents, ne_comm]
    dependencies_trans := by
      intro x y z hxy hyz hne
      rw [h.mem_allDependencies] at hxy hyz ⊢
      exact ⟨hne, hxy.2.trans hyz.2⟩
    dependents_trans := by
      intro x y z hxy hyz hne
      rw [h.mem_allDependents] at hxy hyz ⊢
      exact ⟨hne, hyz.2.trans hxy.2⟩
    leaves := fun _ _ => mem_leafDependencies
    exists_leaf := fun hacyclic _ => h.leafDependencies_ne_nil hacyclic
    answers_dependencies := fun _ hnext x _ => (h.answers_allDependencies hnext x).iff_eq
    answers_dependents := fun _ hnext x _ => (h.answers_allDependents hnext x).iff_eq }

end Graph

end CsdlAudit
