import CsdlAudit.Graph.Basic

/-!
# Reachability

`reachFrom` spreads from a set of ids along arrows, one layer at a time; the ids not yet reached
become fewer with each layer, so it ends on every graph. From it follow the closures of a graph in
both directions and its components: the classes of ids that reach each other.
-/

namespace CsdlAudit

/-- Pairs of a source and a target. -/
abbrev Arrows := List (String × String)

/-- The arrows turned round. -/
def Arrows.reversed (as : Arrows) : Arrows := as.map (fun a => (a.2, a.1))

/-- The targets of the arrows that start in `from'`. -/
def Arrows.step (as : Arrows) (from' : List String) : List String :=
  (as.filter (fun a => from'.contains a.1)).map Prod.snd

theorem length_filter_not_lt {α : Type} {p : α → Bool} {l : List α} {x : α} (hx : x ∈ l)
    (hp : p x = true) : (l.filter (fun y => !p y)).length < l.length := by
  induction l with
  | nil => simp at hx
  | cons a l ih =>
    rcases List.mem_cons.mp hx with rfl | hx
    · simp only [List.filter_cons, hp]
      have := List.length_filter_le (fun y => !p y) l
      simp only [Bool.not_true, Bool.false_eq_true, if_false, List.length_cons]
      omega
    · have := ih hx
      simp only [List.filter_cons]
      split <;> simp only [List.length_cons] <;> omega

/-- The ids of `remaining` that are not in `reached`. -/
def unreached (remaining reached : List String) : List String :=
  remaining.filter (fun y => !reached.contains y)

/-- **What can be reached** from the layer `latest`, of the ids `remaining`. -/
def reachFrom (as : Arrows) (remaining latest : List String) : List String :=
  let next := as.step latest
  match h : remaining.filter next.contains with
  | [] => []
  | x :: rest =>
    have : (unreached remaining next).length < remaining.length := by
      have hx : x ∈ remaining.filter next.contains := by rw [h]; exact List.mem_cons_self
      exact length_filter_not_lt (List.mem_filter.mp hx).1 (List.mem_filter.mp hx).2
    (x :: rest) ++ reachFrom as (unreached remaining next) (x :: rest)
termination_by remaining.length

namespace Graph

/-- The edges as arrows. -/
def arrows (g : Graph) : Arrows := g.edges.map (fun e => (e.source, e.target))

/-- The nodes other than `id` that the arrows lead to from it, ascending. -/
def closure (g : Graph) (as : Arrows) (id : String) : List String :=
  if g.hasNode id then
    Ascending.ofList (reachFrom as (g.ids.filter (fun y => y != id)) [id])
  else []

/-- **Everything that an id depends on**, directly or not. -/
def allDependencies (g : Graph) (id : String) : List String := g.closure g.arrows id

/-- **Everything that depends on an id**, directly or not. -/
def allDependents (g : Graph) (id : String) : List String := g.closure g.arrows.reversed id

/-- The dependencies of an id that depend on nothing. -/
def leafDependencies (g : Graph) (id : String) : List String :=
  (g.allDependencies id).filter (fun d => (g.targets d).isEmpty)

/-- The other members of the component of an id, ascending. -/
def companions (g : Graph) (id : String) : List String :=
  let back := g.allDependents id
  (g.allDependencies id).filter back.contains

/-- **The components with more than one member**, each ascending and all in the order of their
least members. -/
def components (g : Graph) : List (List String) :=
  g.sortedIds.filterMap fun id =>
    match g.companions id with
    | [] => none
    | others => if others.all (fun y => decide (id < y)) then some (id :: others) else none

end Graph

end CsdlAudit
