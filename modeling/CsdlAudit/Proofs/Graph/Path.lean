import CsdlAudit.Graph.Cycles
import CsdlAudit.Proofs.Graph.ScanCover

/-!
# A path is found where there is a walk

The search for a path visits ids as the scan for cycles does, and stops at its goal. It does not
miss the goal for the same reason that the scan misses no cycle: as long as some edge still to be
followed leads to the goal through ids still to be tried, so it does after the next step
(`Graph.pathFrom_ne_nil`). At the start every walk to the goal is of that kind, once what comes
before its last visit to the start is cut off (`Graph.WellFormed.path_ne_nil`).
-/

namespace CsdlAudit

open Relation

/-- **The goal is still to be found**: an edge to be followed leads to it through ids still to be
tried. -/
def Ahead (g : Graph) (remaining : List String) (goal : String) (frames : Frames) : Prop :=
  ∃ f ∈ frames, ∃ y ∈ f.2, FreshWalk g remaining y goal

namespace Ahead

variable {g : Graph} {remaining rest : List String} {goal id next : String} {outer : Frames}

theorem leave (h : Ahead g remaining goal ((id, []) :: outer)) : Ahead g remaining goal outer := by
  obtain ⟨f, hf, y, hy, walk⟩ := h
  rcases List.mem_cons.mp hf with rfl | hf
  · exact absurd hy List.not_mem_nil
  · exact ⟨f, hf, y, hy, walk⟩

/-- An edge to an id that was tried is of no use. -/
theorem skip (h : Ahead g remaining goal ((id, next :: rest) :: outer)) (hnext : next ∉ remaining)
    (hne : next ≠ goal) : Ahead g remaining goal ((id, rest) :: outer) := by
  obtain ⟨f, hf, y, hy, walk⟩ := h
  rcases List.mem_cons.mp hf with rfl | hf
  · rcases List.mem_cons.mp hy with rfl | hy
    · exact absurd (walk.eq_of_notMem hnext) hne
    · exact ⟨_, List.mem_cons_self, y, hy, walk⟩
  · exact ⟨f, List.mem_cons_of_mem _ hf, y, hy, walk⟩

/-- When an id is tried, the walk is as it was or goes on from that id. -/
theorem visit (h : Ahead g remaining goal ((id, next :: rest) :: outer))
    (hnodup : remaining.Nodup) (hne : next ≠ goal) :
    Ahead g (remaining.erase next) goal
      ((next, g.dependencies next) :: (id, rest) :: outer) := by
  obtain ⟨f, hf, y, hy, walk⟩ := h
  rcases walk.erase (n := next) with walk | ⟨z, hz, walk⟩
  · have hrest : Ahead g (remaining.erase next) goal ((id, rest) :: outer) :=
      skip ⟨f, hf, y, hy, walk⟩ hnodup.not_mem_erase hne
    obtain ⟨f, hf, due⟩ := hrest
    exact ⟨f, List.mem_cons_of_mem _ hf, due⟩
  · exact ⟨_, List.mem_cons_self, z, Graph.mem_dependencies.mpr hz, walk⟩

end Ahead

namespace Graph

variable {g : Graph}

/-- **The search finds a goal that is ahead.** -/
theorem pathFrom_ne_nil {goal : String} {remaining : List String} {frames : Frames}
    (h : Ahead g remaining goal frames) (hnodup : remaining.Nodup) :
    g.pathFrom goal remaining frames ≠ [] := by
  fun_induction g.pathFrom goal remaining frames with
  | case1 =>
    obtain ⟨f, hf, -⟩ := h
    exact absurd hf List.not_mem_nil
  | case2 remaining id outer ih => exact ih h.leave hnodup
  | case3 => exact List.append_ne_nil_of_right_ne_nil _ (List.cons_ne_nil _ _)
  | case4 remaining id next rest outer hne hnext _ ih =>
    exact ih (h.visit hnodup hne) (hnodup.erase next)
  | case5 remaining id next rest outer hne hnext ih => exact ih (h.skip hnext hne) hnodup

/-- **There is a path to every id that is reached.** -/
theorem WellFormed.path_ne_nil (h : g.WellFormed) {a b : String} (hab : g.Reaches a b)
    (hne : b ≠ a) : g.path a b ≠ [] := by
  have hmem := h.reaches_mem hab
  have hboth : (g.hasNode a && g.hasNode b) = true := by
    rw [hasNode_iff.mpr hmem.1, hasNode_iff.mpr hmem.2]
    rfl
  rw [path, if_pos hboth, if_neg (Ne.symm hne)]
  refine pathFrom_ne_nil ?_ (h.nodup_ids.erase a)
  obtain ⟨y, ⟨hay, hya⟩, walk⟩ := TransGen.head'_iff.mp (TransGen.avoiding_start hab hne)
  refine ⟨_, List.mem_singleton_self _, y, mem_dependencies.mpr hay, ?_⟩
  -- the walk does not come back to the start, and all other nodes are still to be tried
  clear hay
  induction walk using ReflTransGen.head_induction_on with
  | refl => exact ReflTransGen.refl
  | @head c d hcd _ ih =>
    have hc : c ∈ g.ids.erase a := (List.mem_erase_of_ne hya).mpr (h.source_mem hcd.1)
    exact ReflTransGen.head ⟨hc, hcd.1⟩ (ih hcd.2)

end Graph

end CsdlAudit
