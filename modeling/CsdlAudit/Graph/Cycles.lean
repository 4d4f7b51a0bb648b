import CsdlAudit.Graph.Reach
import CsdlAudit.Natural

/-!
# Cycles and paths

A depth-first scan visits every node once, in ascending order, and follows the dependencies of each
in ascending order. Whenever it meets a node on its own path it reports the closed path from there.
Self references are reported as closed paths of one step.

The path from one id to another is looked for in the same way, and an id that was tried once is not
tried again.
-/

namespace CsdlAudit

/-- **The path of a scan**, latest first: each id with its dependencies not yet followed. -/
abbrev Frames := List (String × List String)

namespace Frames

/-- The ids on the path, first to last. -/
def path (fs : Frames) : List String := (fs.map Prod.fst).reverse

/-- Whether an id stands on the path. -/
def visits (fs : Frames) (id : String) : Bool := fs.any (fun f => f.1 == id)

/-- The path from `id` on, closed by `id`. -/
def closedPath (fs : Frames) (id : String) : List String := fs.path.dropWhile (· != id) ++ [id]

/-- How much is left to follow. -/
def pending (fs : Frames) : Nat := total (fs.map (fun f => f.2.length + 1))

end Frames

theorem length_erase_lt {xs : List String} {x : String} (h : x ∈ xs) :
    (xs.erase x).length < xs.length := by
  have := List.length_pos_of_mem h
  rw [List.length_erase_of_mem h]
  omega

namespace Graph

/-- The closed paths that the scan reports from here on; `remaining` are the ids not yet visited,
ascending. -/
def cyclesFrom (g : Graph) (remaining : List String) (frames : Frames) : List (List String) :=
  match frames with
  | [] =>
    match remaining with
    | [] => []
    | start :: rest => g.cyclesFrom rest [(start, g.dependencies start)]
  | (_, []) :: outer => g.cyclesFrom remaining outer
  | (id, next :: rest) :: outer =>
    if Frames.visits ((id, rest) :: outer) next then
      Frames.closedPath ((id, rest) :: outer) next :: g.cyclesFrom remaining ((id, rest) :: outer)
    else if h : next ∈ remaining then
      have := length_erase_lt h
      g.cyclesFrom (remaining.erase next) ((next, g.dependencies next) :: (id, rest) :: outer)
    else g.cyclesFrom remaining ((id, rest) :: outer)
termination_by (remaining.length, frames.pending)
decreasing_by
  · exact Prod.Lex.left _ _ (by simp)
  · exact Prod.Lex.right _ (by simp [Frames.pending])
  · exact Prod.Lex.right _ (by simp [Frames.pending])
  · exact Prod.Lex.left _ _ this
  · exact Prod.Lex.right _ (by simp [Frames.pending])

/-- **The cycles that a depth-first scan meets**, then the self references. -/
def cycles (g : Graph) : List (List String) :=
  g.cyclesFrom g.sortedIds [] ++ g.selfReferences.map (fun r => [r.1, r.1])

/-- The path that the search finds from here on; `remaining` are the ids not yet tried. -/
def pathFrom (g : Graph) (goal : String) (remaining : List String) (frames : Frames) :
    List String :=
  match frames with
  | [] => []
  | (_, []) :: outer => g.pathFrom goal remaining outer
  | (id, next :: rest) :: outer =>
    if next = goal then Frames.path ((id, rest) :: outer) ++ [goal]
    else if h : next ∈ remaining then
      have := length_erase_lt h
      g.pathFrom goal (remaining.erase next)
        ((next, g.dependencies next) :: (id, rest) :: outer)
    else g.pathFrom goal remaining ((id, rest) :: outer)
termination_by (remaining.length, frames.pending)
decreasing_by
  · exact Prod.Lex.right _ (by simp [Frames.pending])
  · exact Prod.Lex.left _ _ this
  · exact Prod.Lex.right _ (by simp [Frames.pending])

/-- **The path along dependencies from one id to another**, both included; `[]` if there is none or
an id is unknown. -/
def path (g : Graph) (start goal : String) : List String :=
  if g.hasNode start && g.hasNode goal then
    if start = goal then [start]
    else g.pathFrom goal (g.ids.erase start) [(start, g.dependencies start)]
  else []

end Graph

end CsdlAudit
