import CsdlAudit.Proofs.Graph.Components
import CsdlAudit.Proofs.Graph.Scan

/-!
# A scan reports a cycle in every component

While an id is on the path of a scan, suppose that some edge still to be followed – from that id or
from one further along the path – leads back to it through ids that are still to be visited. Then
the scan will close a cycle at that id (`Scanning.exists_report_of_due`): each step either closes
it, or leaves the walk as it is, or visits an id of the walk, and then the rest of the walk starts
from there.

The first id of a component that the scan visits is in that position, since all other ids of its
component are still to be visited then. So the scan closes a cycle in every component
(`Scanning.exists_report`).
-/

namespace CsdlAudit

open Relation

/-- A walk through ids of `remaining`, its end apart. -/
def FreshWalk (g : Graph) (remaining : List String) : String → String → Prop :=
  ReflTransGen (fun a b => a ∈ remaining ∧ g.Leads a b)

/-- **A cycle is still to be closed at `goal`**: from the frame of `goal`, or from one further along
the path, an edge to be followed leads back to it through ids still to be visited. -/
inductive Due (g : Graph) (remaining : List String) (goal : String) : Frames → Prop
  /-- The edge is one of the last frame. -/
  | here {id y : String} {pending : List String} {outer : Frames}
      (hgoal : goal ∈ Frames.path ((id, pending) :: outer)) (hy : y ∈ pending)
      (walk : FreshWalk g remaining y goal) : Due g remaining goal ((id, pending) :: outer)
  /-- The edge is one of an earlier frame. -/
  | outer {f : String × List String} {outer : Frames} (due : Due g remaining goal outer) :
      Due g remaining goal (f :: outer)

namespace FreshWalk

variable {g : Graph} {remaining : List String} {n y goal : String}

theorem eq_of_notMem (h : FreshWalk g remaining y goal) (hy : y ∉ remaining) : y = goal := by
  rcases ReflTransGen.cases_head h with rfl | ⟨_, hstep, -⟩
  · rfl
  · exact absurd hstep.1 hy

/-- When an id is visited, a walk either does not need it or goes on from it. -/
theorem erase (h : FreshWalk g remaining y goal) :
    FreshWalk g (remaining.erase n) y goal ∨
      ∃ z, g.Leads n z ∧ FreshWalk g (remaining.erase n) z goal := by
  induction h using ReflTransGen.head_induction_on with
  | refl => exact Or.inl ReflTransGen.refl
  | @head a b hab _ ih =>
    rcases ih with hb | hz
    · by_cases ha : a = n
      · exact Or.inr ⟨b, ha ▸ hab.2, hb⟩
      · exact Or.inl (ReflTransGen.head ⟨(List.mem_erase_of_ne ha).mpr hab.1, hab.2⟩ hb)
    · exact Or.inr hz

end FreshWalk

namespace Due

variable {g : Graph} {remaining : List String} {goal : String} {frames outer : Frames}

theorem goal_mem_path (h : Due g remaining goal frames) : goal ∈ frames.path := by
  induction h with
  | here hgoal => exact hgoal
  | outer _ ih => simp [ih]

/-- An edge to a visited id is of no use, unless that id is the goal. -/
theorem skip {id next : String} {rest : List String}
    (h : Due g remaining goal ((id, next :: rest) :: outer)) (hvisited : next ∉ remaining)
    (hne : next ≠ goal) : Due g remaining goal ((id, rest) :: outer) := by
  cases h with
  | here hgoal hy walk =>
    rcases List.mem_cons.mp hy with rfl | hy
    · exact absurd (walk.eq_of_notMem hvisited) hne
    · exact Due.here (by simpa using hgoal) hy walk
  | outer due => exact Due.outer due

/-- When an id is visited, the cycle is due as before or through an edge of that id. -/
theorem visit {n : String} (h : Due g remaining goal frames) :
    Due g (remaining.erase n) goal frames ∨
      ∃ z, g.Leads n z ∧ FreshWalk g (remaining.erase n) z goal := by
  induction h with
  | here hpath hy walk => exact walk.erase.imp_left (Due.here hpath hy)
  | outer _ ih => exact ih.imp_left Due.outer

end Due

namespace Scanning

variable {g : Graph}

/-- **What is due is reported.** -/
theorem exists_report_of_due {remaining : List String} {frames : Frames} {goal : String}
    (h : Scanning g remaining frames) (due : Due g remaining goal frames) :
    ∃ c ∈ g.cyclesFrom remaining frames, c.getLast? = some goal := by
  -- the goal stays on the path until its cycle is closed, so it is never visited again
  have hgoal : goal ∉ remaining := h.visited due.goal_mem_path
  fun_induction g.cyclesFrom remaining frames with
  | case1 => cases due
  | case2 start rest ih => cases due
  | case3 remaining id outer ih =>
    cases due with
    | here _ hy => exact absurd hy List.not_mem_nil
    | outer due => exact ih h.leave due hgoal
  | case4 remaining id next rest outer hvisits ih =>
    by_cases hne : next = goal
    · exact ⟨_, List.mem_cons_self, by rw [Frames.closedPath, List.getLast?_concat, hne]⟩
    · have hvisited := h.skip.visited (Frames.visits_iff.mp hvisits)
      obtain ⟨c, hc, hlast⟩ := ih h.skip (due.skip hvisited hne) hgoal
      exact ⟨c, List.mem_cons_of_mem _ hc, hlast⟩
  | case5 remaining id next rest outer hvisits hnext _ ih =>
    have hne : next ≠ goal := fun e => hgoal (e ▸ hnext)
    refine ih (h.visit hnext) ?_ (fun hmem => hgoal (List.mem_of_mem_erase hmem))
    rcases due.visit with due' | ⟨z, hz, walk⟩
    · exact Due.outer (due'.skip h.nodup_remaining.not_mem_erase hne)
    · refine Due.here ?_ (Graph.mem_dependencies.mpr hz) walk
      have := due.goal_mem_path
      simp only [Frames.path_cons, List.mem_append] at this ⊢
      exact Or.inl this
  | case6 remaining id next rest outer hvisits hnext ih =>
    have hne : next ≠ goal := by
      rintro rfl
      have := due.goal_mem_path
      exact hvisits (Frames.visits_iff.mpr (by simpa using this))
    exact ih h.skip (due.skip hnext hne) hgoal

/-- An id that is mutual with itself leads back to itself through ids that are mutual with it. -/
theorem exists_freshWalk {remaining : List String} {n : String} (hn : g.Mutual n n)
    (hclass : ∀ y, y ≠ n → g.Mutual n y → y ∈ remaining) :
    ∃ z, g.Leads n z ∧ FreshWalk g remaining z n := by
  obtain ⟨z, hnz, hzn⟩ := TransGen.head'_iff.mp hn.1
  refine ⟨z, hnz, ?_⟩
  have hreach : g.Reaches n z := TransGen.single hnz
  clear hnz
  induction hzn using ReflTransGen.head_induction_on with
  | refl => exact ReflTransGen.refl
  | @head a b hab hbn ih =>
    by_cases ha : a = n
    · exact ha ▸ ReflTransGen.refl
    · have hmut : g.Mutual n a := ⟨hreach, TransGen.head' hab hbn⟩
      exact ReflTransGen.head ⟨hclass a ha hmut, hab⟩ (ih (hreach.tail hab))

/-- **The scan closes a cycle in every class that it has not begun to visit.** -/
theorem exists_report {remaining : List String} {frames : Frames} {x : String}
    (h : Scanning g remaining frames) (hx : g.Mutual x x)
    (hclass : ∀ y, g.Mutual x y → y ∈ remaining) :
    ∃ c ∈ g.cyclesFrom remaining frames, ∃ y, g.Mutual x y ∧ c.getLast? = some y := by
  -- the first id of the class that is visited has a cycle due
  have first : ∀ {n rest outer}, Scanning g rest ((n, g.dependencies n) :: outer) → g.Mutual x n →
      (∀ y, y ≠ n → g.Mutual x y → y ∈ rest) →
      ∃ c ∈ g.cyclesFrom rest ((n, g.dependencies n) :: outer),
        ∃ y, g.Mutual x y ∧ c.getLast? = some y := by
    intro n rest outer hscan hn hrest
    obtain ⟨z, hz, walk⟩ := exists_freshWalk (hn.symm.trans hn)
      (fun y hy hny => hrest y hy (hn.trans hny))
    obtain ⟨c, hc, hlast⟩ := hscan.exists_report_of_due
      (Due.here (by simp) (Graph.mem_dependencies.mpr hz) walk)
    exact ⟨c, hc, n, hn, hlast⟩
  fun_induction g.cyclesFrom remaining frames with
  | case1 => exact absurd (hclass x hx) List.not_mem_nil
  | case2 start rest ih =>
    have hrest : ∀ y, y ≠ start → g.Mutual x y → y ∈ rest := fun y hy hxy =>
      (List.mem_cons.mp (hclass y hxy)).resolve_left hy
    by_cases hs : g.Mutual x start
    · exact first h.begin hs hrest
    · exact ih h.begin (fun y hxy => hrest y (fun e => hs (e ▸ hxy)) hxy)
  | case3 remaining id outer ih => exact ih h.leave hclass
  | case4 remaining id next rest outer hvisits ih =>
    obtain ⟨c, hc, hlast⟩ := ih h.skip hclass
    exact ⟨c, List.mem_cons_of_mem _ hc, hlast⟩
  | case5 remaining id next rest outer hvisits hnext _ ih =>
    have hrest : ∀ y, y ≠ next → g.Mutual x y → y ∈ remaining.erase next := fun y hy hxy =>
      (List.mem_erase_of_ne hy).mpr (hclass y hxy)
    by_cases hs : g.Mutual x next
    · exact first (h.visit hnext) hs hrest
    · exact ih (h.visit hnext) (fun y hxy => hrest y (fun e => hs (e ▸ hxy)) hxy)
  | case6 remaining id next rest outer hvisits hnext ih => exact ih h.skip hclass

end Scanning

end CsdlAudit
