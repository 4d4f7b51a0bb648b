import Mathlib.Data.List.Lex
import Mathlib.Order.Bounds.Basic
import CsdlAudit.Proofs.Graph.Path

/-!
# The path that is found is the least one

The search for a path tries no id twice, also not after it has left it again. Nothing is lost by
that: what was tried and left leads only to ids that were tried (`Searching.settled`), so a path
that goes through it comes back to the path of the search and repeats an id. Hence every simple path
to the goal branches off the path of the search at an edge still to be followed
(`Searching.branchesOff`), as long as the search goes on. Since edges are followed in ascending
order, what branches off stands behind what is found first, and the path that is found is the least
of all simple paths, compared as sequences of ids (`Searching.isLeast_or_none`).
-/

namespace CsdlAudit

open Relation

namespace Graph

/-- **A simple path** along edges from one id to another, both included. -/
structure IsPath (g : Graph) (a b : String) (p : List String) : Prop where
  /-- Each id leads to the next. -/
  chain : p.IsChain g.Leads
  /-- The first id. -/
  head : p.head? = some a
  /-- The last id. -/
  last : p.getLast? = some b
  /-- No id is repeated. -/
  nodup : p.Nodup

namespace IsPath

variable {g : Graph} {a b : String} {p tail : List String}

theorem ne_nil (h : g.IsPath a b p) : p ≠ [] := by
  rintro rfl
  cases h.head

/-- The ends of a path are joined by a walk. -/
theorem reflTransGen (h : g.IsPath a b p) : ReflTransGen g.Leads a b := by
  have hwalk := List.relationReflTransGen_of_exists_isChain p h.chain h.ne_nil
  have hhead : p.head h.ne_nil = a :=
    Option.some.inj ((List.head?_eq_some_head h.ne_nil).symm.trans h.head)
  have hlast : p.getLast h.ne_nil = b :=
    Option.some.inj ((List.getLast?_eq_some_getLast h.ne_nil).symm.trans h.last)
  rwa [hhead, hlast] at hwalk

/-- A path does not go on behind its end. -/
theorem eq_nil_of_last (before : List String) (h : g.IsPath a b (before ++ b :: tail)) :
    tail = [] := by
  have hlast := h.last
  rw [List.getLast?_append_of_ne_nil _ (List.cons_ne_nil _ _)] at hlast
  have hnodup := h.nodup.of_append_right
  cases tail with
  | nil => rfl
  | cons next tail =>
    rw [List.getLast?_cons_cons] at hlast
    exact absurd (List.mem_of_getLast? hlast) (List.nodup_cons.mp hnodup).1

/-- A path goes on from every id but its end. -/
theorem exists_leads (before : List String) {id : String} {rest : List String}
    (h : g.IsPath a b (before ++ id :: rest)) (hne : id ≠ b) :
    ∃ next tail, rest = next :: tail ∧ g.Leads id next := by
  cases rest with
  | nil =>
    have hlast := h.last
    rw [List.getLast?_concat] at hlast
    exact absurd (Option.some.inj hlast) hne
  | cons next tail =>
    exact ⟨next, tail, rfl, (List.isChain_cons_cons.mp h.chain.right_of_append).1⟩

end IsPath

theorem isPath_singleton (g : Graph) (a : String) : g.IsPath a a [a] :=
  ⟨List.IsChain.singleton a, rfl, rfl, List.nodup_singleton a⟩

end Graph

/-! ## Paths that branch off -/

/-- **A path branches off** the path of a search: it goes along with it up to some id, and on by an
edge still to be followed from there. -/
inductive BranchesOff (q : List String) : Frames → Prop
  /-- The edge is one of the last frame. -/
  | here {id next : String} {pending tail : List String} {outer : Frames}
      (hq : q = Frames.path ((id, pending) :: outer) ++ next :: tail) (hnext : next ∈ pending) :
      BranchesOff q ((id, pending) :: outer)
  /-- The edge is one of an earlier frame. -/
  | outer {f : String × List String} {outer : Frames} (h : BranchesOff q outer) :
      BranchesOff q (f :: outer)

/-- **What stands on the path comes before what is still to be followed**, frame by frame. -/
def AheadOfPending (frames : Frames) : Prop :=
  frames.IsChain fun inner outer => ∀ y ∈ outer.2, inner.1 < y

/-- What is to be followed from the last id does not matter yet. -/
theorem AheadOfPending.of_last {id : String} {pending : List String} {outer : Frames}
    (h : AheadOfPending ((id, pending) :: outer)) (pending' : List String) :
    AheadOfPending ((id, pending') :: outer) := by
  cases outer with
  | nil => exact List.IsChain.singleton _
  | cons f outer => exact List.isChain_cons_cons.mpr (List.isChain_cons_cons.mp h)

/-- What branches off earlier stands behind every way to go on. -/
theorem BranchesOff.lt_path {q : List String} {frames : Frames} (h : BranchesOff q frames)
    {f : String × List String} (hasc : AheadOfPending (f :: frames)) (more : List String) :
    Frames.path (f :: frames) ++ more < q := by
  induction h generalizing f more with
  | here hq hnext =>
    have hless := (List.isChain_cons_cons.mp hasc).1 _ hnext
    rw [hq, Frames.path_cons, List.append_assoc]
    exact List.Lex.append_left _ (List.Lex.rel hless) _
  | outer _ ih =>
    rw [Frames.path_cons, List.append_assoc]
    exact ih (List.isChain_cons_cons.mp hasc).2 _

/-! ## The moments of a search -/

/-- **What holds at every moment of a search** from `start` for `goal`. -/
structure Searching (g : Graph) (start goal : String) (remaining : List String)
    (frames : Frames) : Prop where
  /-- It visits ids as a scan does. -/
  scanning : Scanning g remaining frames
  /-- The goal is not tried. -/
  goal_mem : goal ∈ remaining
  /-- The path begins at the start. -/
  head : ∀ {id}, frames.path.head? = some id → id = start
  /-- What an id of the path leads to is to be followed or was tried. -/
  followed : ∀ {f}, f ∈ frames → ∀ {y}, g.Leads f.1 y → y ∈ f.2 ∨ y ∉ remaining
  /-- What was tried and left leads only to what was tried. -/
  settled : ∀ {x}, x ∉ remaining → x ∉ frames.path → ∀ {y}, g.Leads x y → y ∉ remaining
  /-- What is to be followed from an id ascends. -/
  ascending : ∀ {f}, f ∈ frames → f.2.Pairwise (· < ·)
  /-- It stands behind what is on the path. -/
  ahead : AheadOfPending frames
  /-- Every path to the goal is still to be found. -/
  branchesOff : ∀ {q}, g.IsPath start goal q → BranchesOff q frames

namespace Searching

variable {g : Graph} {start goal id next : String} {remaining rest : List String} {outer : Frames}

theorem initial (hg : g.WellFormed) (hgoal : goal ∈ g.ids) (hne : start ≠ goal) :
    Searching g start goal (g.ids.erase start) [(start, g.dependencies start)] where
  scanning := by
    refine Scanning.begin (Scanning.of_nodup (List.nodup_cons.mpr ⟨?_, ?_⟩))
    · exact hg.nodup_ids.not_mem_erase
    · exact hg.nodup_ids.erase start
  goal_mem := (List.mem_erase_of_ne hne.symm).mpr hgoal
  head := fun h => (Option.some.inj h).symm
  followed := fun hf y hy => by
    obtain rfl := List.mem_singleton.mp hf
    exact Or.inl (Graph.mem_dependencies.mpr hy)
  settled := by
    intro x hx hpath y hxy
    -- all nodes but the start are still to be tried
    have hstart : x ≠ start := fun e => hpath (by simp [e])
    exact absurd ((List.mem_erase_of_ne hstart).mpr (hg.source_mem hxy)) hx
  ascending := fun hf => by
    obtain rfl := List.mem_singleton.mp hf
    exact Ascending.pairwise_lt_ofList _
  ahead := List.IsChain.singleton _
  branchesOff := by
    intro q hq
    obtain ⟨tail, rfl⟩ := List.head?_eq_some_iff.mp hq.head
    obtain ⟨next, tail', rfl, hnext⟩ := hq.exists_leads [] hne
    exact BranchesOff.here rfl (Graph.mem_dependencies.mpr hnext)

/-- The latest id of the path has nothing left to be followed. -/
theorem leave (h : Searching g start goal remaining ((id, []) :: outer)) :
    Searching g start goal remaining outer where
  scanning := h.scanning.leave
  goal_mem := h.goal_mem
  head := fun hhead => h.head (by simp [hhead])
  followed := fun hf => h.followed (List.mem_cons_of_mem _ hf)
  settled := by
    intro x hx hpath y hxy
    by_cases hid : x = id
    · subst hid
      exact (h.followed List.mem_cons_self hxy).resolve_left List.not_mem_nil
    · exact h.settled hx (by simp [hpath, hid]) hxy
  ascending := fun hf => h.ascending (List.mem_cons_of_mem _ hf)
  ahead := h.ahead.tail
  branchesOff := by
    intro q hq
    cases h.branchesOff hq with
    | here _ hnext => exact absurd hnext List.not_mem_nil
    | outer h => exact h

/-- **Who goes on from the path to an id that was tried does not come to the goal** without
repeating an id of the path. -/
theorem not_isPath_of_tried (h : Searching g start goal remaining ((id, next :: rest) :: outer))
    (hnext : next ∉ remaining) {tail : List String} :
    ¬g.IsPath start goal (Frames.path ((id, next :: rest) :: outer) ++ next :: tail) := by
  intro hq
  obtain ⟨-, -, hdisjoint⟩ := List.nodup_append'.mp hq.nodup
  have hchain : (next :: tail).IsChain fun x y => x ∈ next :: tail ∧ g.Leads x y :=
    (List.IsChain.iff_mem.mp hq.chain.right_of_append).imp fun _ _ hxy => ⟨hxy.1, hxy.2.2⟩
  have htried : ∀ x ∈ next :: tail, x ∉ remaining :=
    hchain.induction (· ∉ remaining) _
      (fun x _ hxy hx => h.settled hx (hdisjoint.symm hxy.1) hxy.2) (fun _ => hnext)
  have hlast := hq.last
  rw [List.getLast?_append_of_ne_nil _ (List.cons_ne_nil _ _)] at hlast
  exact htried goal (List.mem_of_getLast? hlast) h.goal_mem

/-- One edge is followed and leads to an id that was tried. -/
theorem skip (h : Searching g start goal remaining ((id, next :: rest) :: outer))
    (hnext : next ∉ remaining) : Searching g start goal remaining ((id, rest) :: outer) where
  scanning := h.scanning.skip
  goal_mem := h.goal_mem
  head := fun hhead => h.head (by simpa using hhead)
  followed := by
    intro f hf y hy
    rcases List.mem_cons.mp hf with rfl | hf
    · rcases h.followed List.mem_cons_self hy with hy | hy
      · rcases List.mem_cons.mp hy with rfl | hy
        · exact Or.inr hnext
        · exact Or.inl hy
      · exact Or.inr hy
    · exact h.followed (List.mem_cons_of_mem _ hf) hy
  settled := fun hx hpath => h.settled hx (by simpa using hpath)
  ascending := by
    intro f hf
    rcases List.mem_cons.mp hf with rfl | hf
    · exact (h.ascending List.mem_cons_self).of_cons
    · exact h.ascending (List.mem_cons_of_mem _ hf)
  ahead := h.ahead.of_last rest
  branchesOff := by
    intro q hq
    cases h.branchesOff hq with
    | here hpath hy =>
      rcases List.mem_cons.mp hy with rfl | hy
      · exact absurd (hpath ▸ hq) (h.not_isPath_of_tried hnext)
      · exact BranchesOff.here (by simpa using hpath) hy
    | outer h => exact BranchesOff.outer h

/-- One edge is followed and leads to an id that is tried now. -/
theorem visit (h : Searching g start goal remaining ((id, next :: rest) :: outer))
    (hnext : next ∈ remaining) (hne : next ≠ goal) :
    Searching g start goal (remaining.erase next)
      ((next, g.dependencies next) :: (id, rest) :: outer) where
  scanning := h.scanning.visit hnext
  goal_mem := (List.mem_erase_of_ne hne.symm).mpr h.goal_mem
  head := fun hhead => h.head (by simpa using hhead)
  followed := by
    intro f hf y hy
    rcases List.mem_cons.mp hf with rfl | hf
    · exact Or.inl (Graph.mem_dependencies.mpr hy)
    rcases List.mem_cons.mp hf with rfl | hf
    · rcases h.followed List.mem_cons_self hy with hy | hy
      · rcases List.mem_cons.mp hy with rfl | hy
        · exact Or.inr h.scanning.nodup_remaining.not_mem_erase
        · exact Or.inl hy
      · exact Or.inr fun hmem => hy (List.mem_of_mem_erase hmem)
    · exact (h.followed (List.mem_cons_of_mem _ hf) hy).imp_right
        fun hy hmem => hy (List.mem_of_mem_erase hmem)
  settled := by
    intro x hx hpath y hxy hmem
    have hxn : x ≠ next := fun e => hpath (by simp [e])
    have hx : x ∉ remaining := fun hrem => hx ((List.mem_erase_of_ne hxn).mpr hrem)
    have hold : x ∉ Frames.path ((id, next :: rest) :: outer) := fun hold => hpath (by
      simp only [Frames.path_cons, List.mem_append] at hold ⊢
      exact Or.inl hold)
    exact h.settled hx hold hxy (List.mem_of_mem_erase hmem)
  ascending := by
    intro f hf
    rcases List.mem_cons.mp hf with rfl | hf
    · exact Ascending.pairwise_lt_ofList _
    rcases List.mem_cons.mp hf with rfl | hf
    · exact (h.ascending List.mem_cons_self).of_cons
    · exact h.ascending (List.mem_cons_of_mem _ hf)
  ahead := by
    refine List.isChain_cons_cons.mpr ⟨?_, h.ahead.of_last rest⟩
    exact fun y hy => List.rel_of_pairwise_cons (h.ascending List.mem_cons_self) hy
  branchesOff := by
    intro q hq
    cases h.branchesOff hq with
    | here hpath hy =>
      rcases List.mem_cons.mp hy with hy | hy
      · -- the path goes through the id that is tried now, and on from there
        obtain rfl := hy.symm
        subst hpath
        obtain ⟨z, tail, rfl, hz⟩ := hq.exists_leads _ hne
        have hpath : Frames.path ((id, next :: rest) :: outer) ++ next :: z :: tail =
            Frames.path ((next, g.dependencies next) :: (id, rest) :: outer) ++ z :: tail := by simp
        exact BranchesOff.here hpath (Graph.mem_dependencies.mpr hz)
      · exact BranchesOff.outer (BranchesOff.here (by simpa using hpath) hy)
    | outer h => exact BranchesOff.outer (BranchesOff.outer h)

/-- The path of the search, closed by the goal, is a path. -/
theorem isPath_concat (h : Searching g start goal remaining ((id, goal :: rest) :: outer)) :
    g.IsPath start goal (Frames.path ((id, rest) :: outer) ++ [goal]) where
  chain := by
    refine h.scanning.skip.chain.append (List.IsChain.singleton _) ?_
    simpa using h.scanning.leads_next
  head := by
    obtain ⟨first, hfirst⟩ : ∃ first, (Frames.path ((id, goal :: rest) :: outer)).head?
        = some first := by
      cases houter : outer.path <;> simp [houter]
    have hpath : Frames.path ((id, rest) :: outer) = Frames.path ((id, goal :: rest) :: outer) := by
      simp
    rw [hpath, List.head?_append, hfirst, h.head hfirst]
    rfl
  last := List.getLast?_concat
  nodup := by
    refine List.nodup_append'.mpr ⟨h.scanning.skip.nodup_path, List.nodup_singleton _, ?_⟩
    exact List.disjoint_singleton.mpr fun hmem => h.scanning.skip.visited hmem h.goal_mem

/-- The path of the search, closed by the goal, stands before all other paths. -/
theorem concat_le (h : Searching g start goal remaining ((id, goal :: rest) :: outer))
    {q : List String} (hq : g.IsPath start goal q) :
    Frames.path ((id, rest) :: outer) ++ [goal] ≤ q := by
  cases h.branchesOff hq with
  | here hpath hy =>
    rcases List.mem_cons.mp hy with rfl | hy
    · subst hpath
      obtain rfl := hq.eq_nil_of_last _
      exact le_of_eq (by simp)
    · have hless := List.rel_of_pairwise_cons (h.ascending List.mem_cons_self) hy
      rw [hpath, Frames.path_cons, Frames.path_cons]
      exact le_of_lt (List.Lex.append_left _ (List.Lex.rel hless) _)
  | outer hbranch =>
    exact le_of_lt (hbranch.lt_path (h.ahead.of_last rest) [goal])

/-- **A search finds the least path**, or nothing if there is none. -/
theorem isLeast_or_none {frames : Frames} (h : Searching g start goal remaining frames) :
    IsLeast {q | g.IsPath start goal q} (g.pathFrom goal remaining frames) ∨
      g.pathFrom goal remaining frames = [] ∧ ∀ q, ¬g.IsPath start goal q := by
  fun_induction g.pathFrom goal remaining frames with
  | case1 => exact Or.inr ⟨rfl, fun q hq => by cases h.branchesOff hq⟩
  | case2 remaining id outer ih => exact ih h.leave
  | case3 remaining id rest outer => exact Or.inl ⟨h.isPath_concat, fun _ hq => h.concat_le hq⟩
  | case4 remaining id next rest outer hne hnext _ ih => exact ih (h.visit hnext hne)
  | case5 remaining id next rest outer hne hnext ih => exact ih (h.skip hnext)

end Searching

end CsdlAudit
