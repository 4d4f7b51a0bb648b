import CsdlAudit.Proofs.Graph.Scan

/-!
# A scan in single steps

The scan can be carried out one step at a time by a machine that keeps the path, the set of the ids
on it and the dependencies still to be followed apart from each other. `InStep` says that the three
tell the same story as one path with frames does; every step keeps it
(`InStep.exists_steps`). So the machine halts on every graph, with the reports of the scan
(`Graph.exists_halting_scan`).
-/

namespace CsdlAudit

open Relation

/-- **A moment of the machine.** -/
structure ScanState where
  /-- The ids from which a path may still start, ascending. -/
  starts : List String
  /-- The ids that were visited. -/
  visited : List String
  /-- The ids that are on the path, in no order. -/
  onPath : List String
  /-- The path, first to last. -/
  path : List String
  /-- What is still to be followed from each id of the path, latest first. -/
  pending : List (List String)
  /-- The reports so far. -/
  found : List (List String)

namespace Graph

/-- Nothing is visited yet. -/
def scanStart (g : Graph) : ScanState := ⟨g.sortedIds, [], [], [], [], []⟩

/-- **One step of the machine**, `none` when it has halted. -/
def scanStep (g : Graph) (s : ScanState) : Option ScanState :=
  match s.pending with
  | [] =>
    match s.starts with
    | [] => none
    | start :: rest =>
      if start ∈ s.visited then some { s with starts := rest }
      else some { s with
        starts := rest
        visited := start :: s.visited
        onPath := start :: s.onPath
        path := [start]
        pending := [g.dependencies start] }
  | [] :: outer =>
    some { s with
      pending := outer
      path := s.path.dropLast
      onPath := match s.path.getLast? with
        | some done => s.onPath.erase done
        | none => s.onPath }
  | (next :: rest) :: outer =>
    if next ∈ s.onPath then
      some { s with
        pending := rest :: outer
        found := s.found ++ [s.path.dropWhile (· != next) ++ [next]] }
    else if next ∈ s.visited then some { s with pending := rest :: outer }
    else
      some { s with
        visited := next :: s.visited
        onPath := next :: s.onPath
        path := s.path ++ [next]
        pending := g.dependencies next :: rest :: outer }

end Graph

/-- **The machine is in step** with a scan that has `remaining` to visit and `frames` on its
path. -/
structure InStep (g : Graph) (s : ScanState) (remaining : List String) (frames : Frames) :
    Prop where
  /-- The scan is at one of its moments. -/
  scanning : Scanning g remaining frames
  /-- The paths agree. -/
  path : s.path = frames.path
  /-- What is to be followed agrees. -/
  pending : s.pending = frames.map Prod.snd
  /-- The set of the ids on the path has each of them once. -/
  onPath : s.onPath.Perm s.path
  /-- What is not visited may still start a path. -/
  remaining : remaining = s.starts.filter (fun id => !s.visited.contains id)
  /-- No node is forgotten. -/
  starts : ∀ {id}, id ∈ g.ids → id ∉ s.visited → id ∈ s.starts

namespace InStep

variable {g : Graph} {s : ScanState} {remaining rest : List String} {frames outer : Frames}
  {id next start : String}

theorem initial (g : Graph) : InStep g g.scanStart g.sortedIds [] where
  scanning := Scanning.initial g
  path := rfl
  pending := rfl
  onPath := List.Perm.nil
  remaining := by simp [Graph.scanStart]
  starts := fun hid _ => Graph.mem_sortedIds.mpr hid

theorem mem_onPath (h : InStep g s remaining frames) : id ∈ s.onPath ↔ id ∈ frames.path := by
  rw [h.onPath.mem_iff, h.path]

theorem mem_remaining (h : InStep g s remaining frames) (hid : id ∈ g.ids) :
    id ∈ remaining ↔ id ∉ s.visited := by
  rw [h.remaining, List.mem_filter, Bool.not_eq_true', ← Bool.not_eq_true, List.contains_iff_mem]
  exact ⟨fun hid => hid.2, fun hv => ⟨h.starts hid hv, hv⟩⟩

/-- Starts that were visited are passed over. -/
theorem exists_skips (h : InStep g s remaining []) :
    ∃ t, ReflTransGen (fun s t => g.scanStep s = some t) s t ∧ InStep g t remaining [] ∧
      t.found = s.found ∧ ∀ start ∈ t.starts.head?, start ∉ t.visited := by
  obtain ⟨starts, visited, onPath, path, pending, found⟩ := s
  induction starts with
  | nil => exact ⟨_, ReflTransGen.refl, h, rfl, by simp⟩
  | cons start tail ih =>
    by_cases hv : start ∈ visited
    · have hstep : g.scanStep ⟨start :: tail, visited, onPath, path, pending, found⟩
          = some ⟨tail, visited, onPath, path, pending, found⟩ := by
        have hp : pending = [] := h.pending
        simp [Graph.scanStep, hp, hv]
      have hskip : InStep g ⟨tail, visited, onPath, path, pending, found⟩ remaining [] := {
        scanning := h.scanning
        path := h.path
        pending := h.pending
        onPath := h.onPath
        remaining := by rw [h.remaining]; simp [hv]
        starts := fun hid hnot => by
          rcases List.mem_cons.mp (h.starts hid hnot) with rfl | hid
          · exact absurd hv hnot
          · exact hid }
      obtain ⟨t, hsteps, ht⟩ := ih hskip
      exact ⟨t, ReflTransGen.head hstep hsteps, ht⟩
    · exact ⟨_, ReflTransGen.refl, h, rfl, by simpa using hv⟩

/-- The next start is visited. -/
theorem begin {tail : List String} (h : InStep g s (start :: rest) [])
    (hstarts : s.starts = start :: tail) (hnot : start ∉ s.visited) :
    InStep g { s with
        starts := tail
        visited := start :: s.visited
        onPath := start :: s.onPath
        path := [start]
        pending := [g.dependencies start] } rest [(start, g.dependencies start)] where
  scanning := h.scanning.begin
  path := rfl
  pending := rfl
  onPath := by
    have hempty : s.onPath = [] := by
      have := h.onPath
      rw [h.path] at this
      exact this.eq_nil
    show List.Perm (start :: s.onPath) [start]
    rw [hempty]
  remaining := by
    have hrem := h.remaining
    rw [hstarts, List.filter_cons_of_pos (by simpa using hnot)] at hrem
    obtain ⟨-, hrest⟩ := List.cons.inj hrem
    show rest = tail.filter (fun id => !(start :: s.visited).contains id)
    rw [hrest]
    -- the start is visited now, and does not come again among the later starts
    refine List.filter_congr (fun x hx => ?_)
    have hne : x ∉ s.visited → x ≠ start := by
      rintro hv rfl
      refine h.scanning.nodup_remaining.notMem ?_
      rw [hrest]
      exact List.mem_filter.mpr ⟨hx, by simpa using hv⟩
    by_cases hv : x ∈ s.visited
    · simp [hv]
    · simp [hv, hne hv]
  starts := by
    intro x hx hnotx
    have hne : x ≠ start := fun e => hnotx (by simp [e])
    have := h.starts hx (fun hv => hnotx (List.mem_cons_of_mem _ hv))
    rw [hstarts] at this
    exact (List.mem_cons.mp this).resolve_left hne

/-- The latest id of the path has nothing left to be followed. -/
theorem leave (h : InStep g s remaining ((id, []) :: outer)) :
    InStep g { s with
        pending := outer.map Prod.snd
        path := s.path.dropLast
        onPath := s.onPath.erase id } remaining outer where
  scanning := h.scanning.leave
  path := by
    show s.path.dropLast = _
    rw [h.path, Frames.path_cons, List.dropLast_concat]
  pending := rfl
  onPath := by
    have hnodup : (outer.path ++ [id]).Nodup := by simpa using h.scanning.nodup_path
    have hperm : s.onPath.Perm (outer.path ++ [id]) := by simpa [h.path] using h.onPath
    have hid : id ∉ outer.path := fun hid =>
      (List.nodup_append'.mp hnodup).2.2 hid (List.mem_singleton_self id)
    show (s.onPath.erase id).Perm s.path.dropLast
    rw [h.path, Frames.path_cons, List.dropLast_concat]
    have := hperm.erase id
    rw [List.erase_append_right _ hid, List.erase_cons_head, List.append_nil] at this
    exact this
  remaining := h.remaining
  starts := h.starts

/-- An edge is followed to an id that was visited. -/
theorem skip (found : List (List String))
    (h : InStep g s remaining ((id, next :: rest) :: outer)) :
    InStep g { s with pending := rest :: outer.map Prod.snd, found := found } remaining
      ((id, rest) :: outer) where
  scanning := h.scanning.skip
  path := by simpa using h.path
  pending := rfl
  onPath := h.onPath
  remaining := h.remaining
  starts := h.starts

/-- An edge is followed to an id that is visited now. -/
theorem visit (h : InStep g s remaining ((id, next :: rest) :: outer)) (hnext : next ∈ remaining) :
    InStep g { s with
        visited := next :: s.visited
        onPath := next :: s.onPath
        path := s.path ++ [next]
        pending := g.dependencies next :: rest :: outer.map Prod.snd }
      (remaining.erase next) ((next, g.dependencies next) :: (id, rest) :: outer) where
  scanning := h.scanning.visit hnext
  path := by
    show s.path ++ [next] = _
    rw [h.path]
    simp
  pending := rfl
  onPath := by
    show (next :: s.onPath).Perm (s.path ++ [next])
    exact (List.Perm.cons next h.onPath).trans (List.perm_append_singleton next s.path).symm
  remaining := by
    rw [h.scanning.nodup_remaining.erase_eq_filter, h.remaining, List.filter_filter]
    refine List.filter_congr (fun x _ => ?_)
    by_cases hx : x = next
    · simp [hx]
    · simp [hx]
  starts := fun hx hnot => h.starts hx (fun hv => hnot (List.mem_cons_of_mem _ hv))

/-- **The machine follows the scan to its end**, and halts there with all its reports. -/
theorem exists_steps (hg : g.WellFormed) (h : InStep g s remaining frames) :
    ∃ t, ReflTransGen (fun s t => g.scanStep s = some t) s t ∧ g.scanStep t = none ∧
      t.found = s.found ++ g.cyclesFrom remaining frames := by
  fun_induction g.cyclesFrom remaining frames generalizing s with
  | case1 =>
    obtain ⟨t, hsteps, ht, hfound, hhead⟩ := h.exists_skips
    refine ⟨t, hsteps, ?_, by rw [hfound, List.append_nil]⟩
    have hpending : t.pending = [] := ht.pending
    cases hstarts : t.starts with
    | nil => simp [Graph.scanStep, hpending, hstarts]
    | cons start tail =>
      have hnot : start ∉ t.visited := hhead start (by simp [hstarts])
      have := ht.remaining
      simp [hstarts, hnot] at this
  | case2 start rest ih =>
    obtain ⟨t, hsteps, ht, hfound, hhead⟩ := h.exists_skips
    have hpending : t.pending = [] := ht.pending
    cases hstarts : t.starts with
    | nil =>
      have := ht.remaining
      simp [hstarts] at this
    | cons first tail =>
      have hnot : first ∉ t.visited := hhead first (by simp [hstarts])
      have hrem := ht.remaining
      rw [hstarts, List.filter_cons_of_pos (by simpa using hnot)] at hrem
      obtain ⟨rfl, -⟩ := List.cons.inj hrem
      obtain ⟨u, hsteps', hhalt, hfound'⟩ := ih (ht.begin hstarts hnot)
      refine ⟨u, hsteps.trans (ReflTransGen.head ?_ hsteps'), hhalt, ?_⟩
      · simp [Graph.scanStep, hpending, hstarts, hnot]
      · rw [hfound', ← hfound]
  | case3 remaining id outer ih =>
    obtain ⟨t, hsteps, hhalt, hfound⟩ := ih h.leave
    refine ⟨t, ReflTransGen.head ?_ hsteps, hhalt, hfound⟩
    have hpending : s.pending = [] :: outer.map Prod.snd := h.pending
    simp [Graph.scanStep, hpending, h.path]
  | case4 remaining id next rest outer hvisits ih =>
    obtain ⟨t, hsteps, hhalt, hfound⟩ := ih
      (h.skip (s.found ++ [Frames.closedPath ((id, rest) :: outer) next]))
    refine ⟨t, ReflTransGen.head ?_ hsteps, hhalt, by rw [hfound, List.append_assoc]; rfl⟩
    have hmem : next ∈ s.onPath := by
      rw [h.mem_onPath]
      simpa using Frames.visits_iff.mp hvisits
    have hpending : s.pending = (next :: rest) :: outer.map Prod.snd := h.pending
    simp [Graph.scanStep, hpending, hmem, h.path, Frames.closedPath]
  | case5 remaining id next rest outer hvisits hnext _ ih =>
    obtain ⟨t, hsteps, hhalt, hfound⟩ := ih (h.visit hnext)
    refine ⟨t, ReflTransGen.head ?_ hsteps, hhalt, hfound⟩
    have hnode : next ∈ g.ids := hg.target_mem h.scanning.leads_next
    have hvisited : next ∉ s.visited := (h.mem_remaining hnode).mp hnext
    have hpath : next ∉ s.onPath := fun hmem =>
      h.scanning.visited (h.mem_onPath.mp hmem) hnext
    have hpending : s.pending = (next :: rest) :: outer.map Prod.snd := h.pending
    simp [Graph.scanStep, hpending, hvisited, hpath]
  | case6 remaining id next rest outer hvisits hnext ih =>
    obtain ⟨t, hsteps, hhalt, hfound⟩ := ih (h.skip s.found)
    refine ⟨t, ReflTransGen.head ?_ hsteps, hhalt, hfound⟩
    have hnode : next ∈ g.ids := hg.target_mem h.scanning.leads_next
    have hvisited : next ∈ s.visited := by
      by_contra hv
      exact hnext ((h.mem_remaining hnode).mpr hv)
    have hpath : next ∉ s.onPath := by
      rw [h.mem_onPath]
      intro hmem
      exact hvisits (Frames.visits_iff.mpr (by simpa using hmem))
    have hpending : s.pending = (next :: rest) :: outer.map Prod.snd := h.pending
    simp [Graph.scanStep, hpending, hvisited, hpath]

end InStep

/-- **The machine halts on every graph**, with the reports of the scan. -/
theorem Graph.exists_halting_scan {g : Graph} (hg : g.WellFormed) :
    ∃ t, ReflTransGen (fun s t => g.scanStep s = some t) g.scanStart t ∧ g.scanStep t = none ∧
      t.found = g.cyclesFrom g.sortedIds [] := by
  simpa [Graph.scanStart] using (InStep.initial g).exists_steps hg

end CsdlAudit
