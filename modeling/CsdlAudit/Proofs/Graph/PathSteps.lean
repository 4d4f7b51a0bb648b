import CsdlAudit.Proofs.Graph.LeastPath
import CsdlAudit.Proofs.Machine

/-!
# The search for a path in single steps

The search can be carried out by a machine that keeps the set of the ids that were tried, the path
and the dependencies still to be followed apart from each other. `SearchState.InStep` says that the
three tell the same story as the frames of the search do, and every step keeps it; so the machine
answers on every graph, and with the path that is found (`Graph.WellFormed.answers_path`).

`Graph.pathAnswered_assemble` puts this together with what is known of that path.
-/

namespace CsdlAudit

open Relation

/-- **A moment of the search.** -/
structure SearchState where
  /-- The ids that were tried. -/
  tried : List String
  /-- The path, first to last. -/
  path : List String
  /-- What is still to be followed from each id of the path, latest first. -/
  pending : List (List String)

namespace Graph

/-- **How the search begins**: with its answer, if there is nothing to be searched. -/
def searchStart (g : Graph) (start goal : String) : SearchState ⊕ List String :=
  if g.hasNode start && g.hasNode goal then
    if start = goal then .inr [start]
    else .inl ⟨[start], [start], [g.dependencies start]⟩
  else .inr []

/-- **One step of the search.** -/
def searchStep (g : Graph) (goal : String) (s : SearchState) : SearchState ⊕ List String :=
  match s.pending with
  | [] => .inr []
  | [] :: outer => .inl { s with pending := outer, path := s.path.dropLast }
  | (next :: rest) :: outer =>
    if next = goal then .inr (s.path ++ [next])
    else if next ∈ s.tried then .inl { s with pending := rest :: outer }
    else
      .inl {
        tried := next :: s.tried
        path := s.path ++ [next]
        pending := g.dependencies next :: rest :: outer }

end Graph

/-- **The machine is in step** with a search that has `remaining` to try and `frames` on its
path. -/
structure SearchState.InStep (s : SearchState) (g : Graph) (remaining : List String)
    (frames : Frames) : Prop where
  /-- The paths agree. -/
  path : s.path = frames.path
  /-- What is to be followed agrees. -/
  pending : s.pending = frames.map Prod.snd
  /-- What is not tried remains. -/
  remaining : ∀ {id}, id ∈ g.ids → (id ∈ remaining ↔ id ∉ s.tried)

namespace SearchState.InStep

variable {g : Graph} {s : SearchState} {start goal id next : String} {remaining rest : List String}
  {frames outer : Frames}

/-- The latest id of the path has nothing left to be followed. -/
theorem leave (h : s.InStep g remaining ((id, []) :: outer)) :
    InStep { s with pending := outer.map Prod.snd, path := s.path.dropLast } g remaining outer where
  path := by
    show s.path.dropLast = outer.path
    rw [h.path, Frames.path_cons, List.dropLast_concat]
  pending := rfl
  remaining := h.remaining

/-- An edge is followed to an id that was tried. -/
theorem skip (h : s.InStep g remaining ((id, next :: rest) :: outer)) :
    InStep { s with pending := rest :: outer.map Prod.snd } g remaining ((id, rest) :: outer) where
  path := by simpa using h.path
  pending := rfl
  remaining := h.remaining

/-- An edge is followed to an id that is tried now. -/
theorem visit (h : s.InStep g remaining ((id, next :: rest) :: outer)) (hnodup : remaining.Nodup) :
    InStep ⟨next :: s.tried, s.path ++ [next], g.dependencies next :: rest :: outer.map Prod.snd⟩ g
      (remaining.erase next) ((next, g.dependencies next) :: (id, rest) :: outer) where
  path := by
    show s.path ++ [next] = _
    rw [h.path, Frames.path_cons, Frames.path_cons, Frames.path_cons]
  pending := rfl
  remaining := by
    intro x hx
    rw [hnodup.mem_erase_iff, h.remaining hx, List.mem_cons, not_or]

/-- **The machine follows the search to its answer.** -/
theorem answers (hg : g.WellFormed) (h : s.InStep g remaining frames)
    (hsearch : Searching g start goal remaining frames) :
    Answers (g.searchStep goal) (.inl s) (g.pathFrom goal remaining frames) := by
  fun_induction g.pathFrom goal remaining frames generalizing s with
  | case1 =>
    have hpending : s.pending = [] := h.pending
    exact .of_answer (by simp [Graph.searchStep, hpending])
  | case2 remaining id outer ih =>
    have hpending : s.pending = [] :: outer.map Prod.snd := h.pending
    exact .of_step (by simp [Graph.searchStep, hpending]) (ih h.leave hsearch.leave)
  | case3 remaining id rest outer =>
    have hpending : s.pending = (goal :: rest) :: outer.map Prod.snd := h.pending
    exact .of_answer (by simp [Graph.searchStep, hpending, h.path])
  | case4 remaining id next rest outer hne hnext _ ih =>
    have hpending : s.pending = (next :: rest) :: outer.map Prod.snd := h.pending
    have hnode : next ∈ g.ids := hg.target_mem hsearch.scanning.leads_next
    have htried : next ∉ s.tried := (h.remaining hnode).mp hnext
    exact .of_step (by simp [Graph.searchStep, hpending, hne, htried])
      (ih (h.visit hsearch.scanning.nodup_remaining) (hsearch.visit hnext hne))
  | case5 remaining id next rest outer hne hnext ih =>
    have hpending : s.pending = (next :: rest) :: outer.map Prod.snd := h.pending
    have hnode : next ∈ g.ids := hg.target_mem hsearch.scanning.leads_next
    have htried : next ∈ s.tried := not_not.mp fun hnot => hnext ((h.remaining hnode).mpr hnot)
    exact .of_step (by simp [Graph.searchStep, hpending, hne, htried])
      (ih h.skip (hsearch.skip hnext))

end SearchState.InStep

namespace Graph

variable {g : Graph}

/-! ## The answer -/

theorem path_eq_nil_of_unknown {start goal : String} (h : start ∉ g.ids ∨ goal ∉ g.ids) :
    g.path start goal = [] := by
  rw [path, if_neg]
  rw [Bool.and_eq_true, hasNode_iff, hasNode_iff]
  exact fun hboth => h.elim (fun h => h hboth.1) (fun h => h hboth.2)

theorem path_self {start : String} (h : start ∈ g.ids) : g.path start start = [start] := by
  rw [path, Bool.and_self, if_pos (hasNode_iff.mpr h), if_pos rfl]

theorem path_eq_pathFrom {start goal : String} (hstart : start ∈ g.ids) (hgoal : goal ∈ g.ids)
    (hne : start ≠ goal) :
    g.path start goal = g.pathFrom goal (g.ids.erase start) [(start, g.dependencies start)] := by
  rw [path, hasNode_iff.mpr hstart, hasNode_iff.mpr hgoal, Bool.and_self, if_pos rfl, if_neg hne]

namespace WellFormed

variable (h : g.WellFormed)

include h

/-- **What is found is the least path**, and nothing is found only if there is no path. -/
theorem isLeast_path_or {start goal : String} (hstart : start ∈ g.ids) (hgoal : goal ∈ g.ids) :
    IsLeast {p | g.IsPath start goal p} (g.path start goal) ∨
      g.path start goal = [] ∧ ∀ p, ¬g.IsPath start goal p := by
  by_cases hne : start = goal
  · subst hne
    rw [path_self hstart]
    refine Or.inl ⟨isPath_singleton g start, fun p hp => ?_⟩
    obtain ⟨tail, rfl⟩ := List.head?_eq_some_iff.mp hp.head
    obtain rfl := hp.eq_nil_of_last []
    exact le_refl _
  · rw [path_eq_pathFrom hstart hgoal hne]
    exact (Searching.initial h hgoal hne).isLeast_or_none

/-- **Nothing is found just when an id is unknown or the goal is out of reach.** -/
theorem path_eq_nil_iff {start goal : String} :
    g.path start goal = [] ↔
      start ∉ g.ids ∨ goal ∉ g.ids ∨ ¬ReflTransGen g.Leads start goal := by
  constructor
  · intro hnil
    by_contra hnot
    simp only [not_or, not_not] at hnot
    obtain ⟨hstart, -, hwalk⟩ := hnot
    rcases reflTransGen_iff_eq_or_transGen.mp hwalk with rfl | hwalk
    · rw [path_self hstart] at hnil
      exact List.cons_ne_nil _ _ hnil
    · by_cases hne : goal = start
      · rw [hne, path_self hstart] at hnil
        exact List.cons_ne_nil _ _ hnil
      · exact h.path_ne_nil hwalk hne hnil
  · intro hnone
    by_cases hstart : start ∈ g.ids
    · by_cases hgoal : goal ∈ g.ids
      · rcases h.isLeast_path_or hstart hgoal with hleast | ⟨hnil, -⟩
        · have hwalk : ReflTransGen g.Leads start goal := hleast.1.reflTransGen
          simp [hstart, hgoal, hwalk] at hnone
        · exact hnil
      · exact path_eq_nil_of_unknown (Or.inr hgoal)
    · exact path_eq_nil_of_unknown (Or.inl hstart)

/-- What is found is the least path. -/
theorem isLeast_path {start goal : String} (hne : g.path start goal ≠ []) :
    IsLeast {p | g.IsPath start goal p} (g.path start goal) := by
  have hknown : start ∈ g.ids ∧ goal ∈ g.ids := by
    by_contra hnot
    exact hne (path_eq_nil_of_unknown (not_and_or.mp hnot))
  exact (h.isLeast_path_or hknown.1 hknown.2).resolve_right fun hnone => hne hnone.1

/-- **The machine answers on every graph**, with the path that is found. -/
theorem answers_path (start goal : String) :
    Answers (g.searchStep goal) (g.searchStart start goal) (g.path start goal) := by
  unfold searchStart path
  split
  · next hboth =>
    rw [Bool.and_eq_true, hasNode_iff, hasNode_iff] at hboth
    split
    · exact Answers.done _
    · next hne =>
      refine SearchState.InStep.answers h ⟨rfl, rfl, fun {x} hx => ?_⟩
        (Searching.initial h hboth.2 hne)
      rw [h.nodup_ids.mem_erase_iff, List.mem_singleton, and_iff_left hx]
  · exact Answers.done _

end WellFormed

/-- **What the search for a path answers.** -/
structure PathAnswered (g : Graph) (start goal : String) : Prop where
  /-- It finds nothing just when an id is unknown or the goal is out of reach. -/
  eq_nil_iff : g.path start goal = [] ↔
    start ∉ g.ids ∨ goal ∉ g.ids ∨ ¬ReflTransGen g.Leads start goal
  /-- What it finds is the least of all simple paths, compared as sequences of ids. -/
  isLeast : g.path start goal ≠ [] → IsLeast {p | g.IsPath start goal p} (g.path start goal)
  /-- The path from a node to itself is the node alone. -/
  self : start = goal → start ∈ g.ids → g.path start goal = [start]
  /-- Step by step the search comes to its end, with this answer and no other. -/
  answers : ∀ p, Answers (g.searchStep goal) (g.searchStart start goal) p ↔ p = g.path start goal

/-- **The search finds the least path on every graph**, in whatever order it was put together, and
between all ids. -/
theorem pathAnswered_assemble (additions : List Addition) (start goal : String) :
    (assemble additions).PathAnswered start goal where
  eq_nil_iff := (wellFormed_assemble additions).path_eq_nil_iff
  isLeast := (wellFormed_assemble additions).isLeast_path
  self := by
    rintro rfl hstart
    exact path_self hstart
  answers := fun _ => ((wellFormed_assemble additions).answers_path start goal).iff_eq

end Graph

end CsdlAudit
