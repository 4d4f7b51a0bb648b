import CsdlAudit.Graph.Basic

/-!
# An order in which nothing stands before what it depends on

A depth-first walk lists each node when all that it leads to is listed. On a graph without cycles
this puts dependencies before dependents; `Graph.order?` gives the list only if it does.
-/

namespace CsdlAudit.Graph

/-- The nodes in the order in which the walk finishes them. `remaining` are those not yet
discovered, `stack` those to look at next. -/
def finishFrom (g : Graph) (remaining stack finished : List String) : List String :=
  match stack, remaining with
  | [], [] => finished
  | [], start :: rest =>
    g.finishFrom rest ((g.targets start).filter rest.contains ++ [start]) finished
  | id :: below, remaining =>
    if h : id ∈ remaining then
      have : (remaining.erase id).length < remaining.length := by
        have := List.length_pos_of_mem h
        rw [List.length_erase_of_mem h]
        omega
      let rest := remaining.erase id
      g.finishFrom rest ((g.targets id).filter rest.contains ++ id :: below) finished
    else
      g.finishFrom remaining below (if finished.contains id then finished else finished ++ [id])
termination_by (remaining.length, stack.length)

/-- Whether each edge leads from an id to one that stands before it. -/
def isOrder (g : Graph) (list : List String) : Bool :=
  g.edges.all (fun e => decide (list.idxOf e.target < list.idxOf e.source))

/-- **The nodes with dependencies before dependents**, `none` if there is a cycle. -/
def order? (g : Graph) : Option (List String) :=
  let list := g.finishFrom g.ids [] []
  if g.isOrder list then some list else none

end CsdlAudit.Graph
