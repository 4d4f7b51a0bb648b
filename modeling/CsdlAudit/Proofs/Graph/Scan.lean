import Mathlib.Data.List.Chain
import Mathlib.Data.List.Rotate
import CsdlAudit.Graph.Cycles
import CsdlAudit.Proofs.Ascending
import CsdlAudit.Proofs.Graph.Closure

/-!
# What a scan reports

A scan keeps a path of ids, each with the dependencies that it has still to follow. `Scanning` says
what holds at every moment of it: the path follows edges and repeats nothing, what is still to be
followed are edges, and no id of the path is still to be visited. Every step of the scan keeps this.

Two things follow for the reports. Each is a cycle of the graph (`Scanning.isCycle_of_mem`). And no
two are the same cycle, wherever they start: a report is told by its last step, which is followed
once (`Scanning.nodup_cyclesFrom`), and the ids of a report stand in the order in which the scan
came to them (`Scanning.exists_visits`), so two reports with the same ids start at the same one.
-/

namespace CsdlAudit

namespace Graph

/-- **A cycle**: a closed path along edges that visits at least two ids, each once. -/
structure IsCycle (g : Graph) (c : List String) : Prop where
  /-- Each id leads to the next. -/
  chain : c.IsChain g.Leads
  /-- The first id is the last. -/
  closed : c.head? = c.getLast?
  /-- No other id is repeated. -/
  nodup : c.dropLast.Nodup
  /-- There are two ids at least. -/
  two_le : 2 ≤ c.dropLast.length

end Graph

namespace Frames

@[simp] theorem path_cons (f : String × List String) (fs : Frames) :
    path (f :: fs) = path fs ++ [f.1] := by
  simp [path]

theorem mem_path {fs : Frames} {id : String} : id ∈ fs.path ↔ id ∈ fs.map Prod.fst :=
  List.mem_reverse

theorem visits_iff {fs : Frames} {id : String} : fs.visits id = true ↔ id ∈ fs.path := by
  rw [mem_path]
  simp [visits]

/-- The closed path from an id on takes the path from there, up to the id that is left last. -/
theorem exists_closedPath {outer : Frames} {id next : String} {rest : List String}
    (hnext : next ∈ Frames.path ((id, rest) :: outer)) :
    ∃ after front, Frames.closedPath ((id, rest) :: outer) next = next :: after ++ [next] ∧
      next :: after <:+ Frames.path ((id, rest) :: outer) ∧ next :: after = front ++ [id] := by
  obtain ⟨before, after, hpath, hnot⟩ := List.eq_append_cons_of_mem hnext
  have hbefore : ∀ x ∈ before, (x != next) = true := fun x hx =>
    bne_iff_ne.mpr (fun e => hnot (e ▸ hx))
  have hclosed : Frames.closedPath ((id, rest) :: outer) next = next :: after ++ [next] := by
    rw [closedPath, hpath, List.dropWhile_append_of_pos hbefore, List.dropWhile_cons]
    simp
  have hlast : (next :: after).getLast? = some id := by
    have : (Frames.path ((id, rest) :: outer)).getLast? = some id := by simp
    rw [hpath, List.getLast?_append_of_ne_nil _ (List.cons_ne_nil _ _)] at this
    exact this
  obtain ⟨front, hfront⟩ := List.getLast?_eq_some_iff.mp hlast
  exact ⟨after, front, hclosed, ⟨before, hpath.symm⟩, hfront⟩

end Frames

/-! ## The moments of a scan -/

/-- **What holds at every moment of a scan.** -/
structure Scanning (g : Graph) (remaining : List String) (frames : Frames) : Prop where
  /-- No id is to be visited twice. -/
  nodup_remaining : remaining.Nodup
  /-- The path repeats nothing. -/
  nodup_path : frames.path.Nodup
  /-- What is on the path was visited. -/
  visited : ∀ {id}, id ∈ frames.path → id ∉ remaining
  /-- The path follows edges. -/
  chain : frames.path.IsChain g.Leads
  /-- What is to be followed are edges. -/
  leads : ∀ {f}, f ∈ frames → ∀ {y}, y ∈ f.2 → g.Leads f.1 y
  /-- No edge is to be followed twice. -/
  nodup_pending : ∀ {f}, f ∈ frames → f.2.Nodup

namespace Scanning

variable {g : Graph} {remaining : List String} {outer : Frames} {id next start : String}
  {rest : List String}

/-- A scan may begin with any ids still to be visited. -/
theorem of_nodup (h : remaining.Nodup) : Scanning g remaining [] where
  nodup_remaining := h
  nodup_path := List.nodup_nil
  visited := fun h => absurd h List.not_mem_nil
  chain := List.IsChain.nil
  leads := fun h => absurd h List.not_mem_nil
  nodup_pending := fun h => absurd h List.not_mem_nil

theorem initial (g : Graph) : Scanning g g.sortedIds [] := of_nodup (Ascending.nodup_ofList _)

theorem begin (h : Scanning g (start :: rest) []) :
    Scanning g rest [(start, g.dependencies start)] where
  nodup_remaining := h.nodup_remaining.of_cons
  nodup_path := List.nodup_singleton start
  visited := fun hid => List.mem_singleton.mp hid ▸ h.nodup_remaining.notMem
  chain := List.IsChain.singleton start
  leads := fun hf y hy => by
    obtain rfl := List.mem_singleton.mp hf
    exact Graph.mem_dependencies.mp hy
  nodup_pending := fun hf => by
    obtain rfl := List.mem_singleton.mp hf
    exact Ascending.nodup_ofList _

theorem leave (h : Scanning g remaining ((id, rest) :: outer)) : Scanning g remaining outer where
  nodup_remaining := h.nodup_remaining
  nodup_path := by
    have := h.nodup_path
    rw [Frames.path_cons] at this
    exact this.of_append_left
  visited := fun hid => h.visited (by simp [hid])
  chain := by
    have := h.chain
    rw [Frames.path_cons] at this
    exact this.left_of_append
  leads := fun hf => h.leads (List.mem_cons_of_mem _ hf)
  nodup_pending := fun hf => h.nodup_pending (List.mem_cons_of_mem _ hf)

/-- One edge is followed and leads to nothing new. -/
theorem skip (h : Scanning g remaining ((id, next :: rest) :: outer)) :
    Scanning g remaining ((id, rest) :: outer) where
  nodup_remaining := h.nodup_remaining
  nodup_path := by simpa using h.nodup_path
  visited := fun hid => h.visited (by simpa using hid)
  chain := by simpa using h.chain
  leads := fun {f} hf y hy => by
    rcases List.mem_cons.mp hf with rfl | hf
    · exact h.leads List.mem_cons_self (List.mem_cons_of_mem _ hy)
    · exact h.leads (List.mem_cons_of_mem _ hf) hy
  nodup_pending := fun {f} hf => by
    rcases List.mem_cons.mp hf with rfl | hf
    · exact (h.nodup_pending List.mem_cons_self).of_cons
    · exact h.nodup_pending (List.mem_cons_of_mem _ hf)

theorem leads_next (h : Scanning g remaining ((id, next :: rest) :: outer)) : g.Leads id next :=
  h.leads List.mem_cons_self List.mem_cons_self

/-- One edge is followed and leads to an id that is visited now. -/
theorem visit (h : Scanning g remaining ((id, next :: rest) :: outer)) (hnext : next ∈ remaining) :
    Scanning g (remaining.erase next) ((next, g.dependencies next) :: (id, rest) :: outer) where
  nodup_remaining := h.nodup_remaining.erase next
  nodup_path := by
    rw [Frames.path_cons]
    refine List.nodup_append'.mpr ⟨h.skip.nodup_path, List.nodup_singleton _, ?_⟩
    exact List.disjoint_singleton.mpr (fun hmem => h.skip.visited hmem hnext)
  visited := fun {x} hx hrem => by
    rw [Frames.path_cons, List.mem_append, List.mem_singleton] at hx
    rcases hx with hx | rfl
    · exact h.skip.visited hx (List.mem_of_mem_erase hrem)
    · exact h.nodup_remaining.not_mem_erase hrem
  chain := by
    have := h.skip.chain
    rw [Frames.path_cons] at this ⊢
    rw [Frames.path_cons]
    exact this.append (List.IsChain.singleton _) (by simpa using h.leads_next)
  leads := fun {f} hf y hy => by
    rcases List.mem_cons.mp hf with rfl | hf
    · exact Graph.mem_dependencies.mp hy
    · exact h.skip.leads hf hy
  nodup_pending := fun {f} hf => by
    rcases List.mem_cons.mp hf with rfl | hf
    · exact Ascending.nodup_ofList _
    · exact h.skip.nodup_pending hf

/-! ## A report is a cycle -/

/-- An edge back to the path closes a cycle. -/
theorem isCycle_closedPath (h : Scanning g remaining ((id, next :: rest) :: outer))
    (hg : g.WellFormed) (hnext : next ∈ Frames.path ((id, rest) :: outer)) :
    g.IsCycle (Frames.closedPath ((id, rest) :: outer) next) := by
  obtain ⟨after, front, hclosed, hsuffix, hfront⟩ := Frames.exists_closedPath hnext
  have hchain : (next :: after).IsChain g.Leads := h.skip.chain.suffix hsuffix
  have hnodup : (next :: after).Nodup := h.skip.nodup_path.sublist hsuffix.sublist
  rw [hclosed]
  refine ⟨?_, ?_, by rw [List.dropLast_concat]; exact hnodup, ?_⟩
  · refine hchain.append (List.IsChain.singleton _) (fun x hx y hy => ?_)
    obtain rfl : id = x := by simpa [hfront] using hx
    obtain rfl : next = y := by simpa using hy
    exact h.leads_next
  · rw [List.getLast?_concat, List.cons_append, List.head?_cons]
  · rw [List.dropLast_concat]
    cases after with
    | nil =>
      -- the cycle would be an edge from an id to itself
      obtain ⟨-, rfl⟩ : front = [] ∧ next = id := by
        cases front <;> simp_all
      exact absurd rfl (hg.ne_of_leads h.leads_next)
    | cons a after => simp

/-- **Every report of a scan is a cycle of the graph.** -/
theorem isCycle_of_mem {frames : Frames} (h : Scanning g remaining frames) (hg : g.WellFormed)
    {c : List String} (hc : c ∈ g.cyclesFrom remaining frames) : g.IsCycle c := by
  fun_induction g.cyclesFrom remaining frames with
  | case1 => exact absurd hc List.not_mem_nil
  | case2 start rest ih => exact ih h.begin hc
  | case3 remaining id outer ih => exact ih h.leave hc
  | case4 remaining id next rest outer hvisits ih =>
    rcases List.mem_cons.mp hc with rfl | hc
    · exact h.isCycle_closedPath hg (Frames.visits_iff.mp hvisits)
    · exact ih h.skip hc
  | case5 remaining id next rest outer hvisits hnext _ ih => exact ih (h.visit hnext) hc
  | case6 remaining id next rest outer hvisits hnext ih => exact ih h.skip hc

/-! ## No report is made twice -/

/-- **An edge is still to be followed**: from the path, or because its start is still to be
visited. -/
def ToFollow (remaining : List String) (frames : Frames) (u v : String) : Prop :=
  (∃ f ∈ frames, f.1 = u ∧ v ∈ f.2) ∨ u ∈ remaining

theorem toFollow_of_outer {f : String × List String} {u v : String}
    (huv : ToFollow remaining outer u v) : ToFollow remaining (f :: outer) u v :=
  huv.imp_left (fun ⟨f', hf', huv⟩ => ⟨f', List.mem_cons_of_mem _ hf', huv⟩)

theorem toFollow_of_skip {u v : String} (huv : ToFollow remaining ((id, rest) :: outer) u v) :
    ToFollow remaining ((id, next :: rest) :: outer) u v := by
  rcases huv with ⟨f, hf, hu, hv⟩ | hu
  · rcases List.mem_cons.mp hf with rfl | hf
    · exact Or.inl ⟨_, List.mem_cons_self, hu, List.mem_cons_of_mem _ hv⟩
    · exact Or.inl ⟨f, List.mem_cons_of_mem _ hf, hu, hv⟩
  · exact Or.inr hu

/-- The last step of a report is an edge that was still to be followed. -/
theorem exists_last_step {frames : Frames} (h : Scanning g remaining frames) {c : List String}
    (hc : c ∈ g.cyclesFrom remaining frames) :
    ∃ u v, [u, v] <:+ c ∧ ToFollow remaining frames u v := by
  fun_induction g.cyclesFrom remaining frames with
  | case1 => exact absurd hc List.not_mem_nil
  | case2 start rest ih =>
    obtain ⟨u, v, hcuv, huv⟩ := ih h.begin hc
    refine ⟨u, v, hcuv, Or.inr ?_⟩
    rcases huv with ⟨f, hf, rfl, -⟩ | hu
    · exact List.mem_singleton.mp hf ▸ List.mem_cons_self
    · exact List.mem_cons_of_mem _ hu
  | case3 remaining id outer ih =>
    obtain ⟨u, v, hcuv, huv⟩ := ih h.leave hc
    exact ⟨u, v, hcuv, toFollow_of_outer huv⟩
  | case4 remaining id next rest outer hvisits ih =>
    rcases List.mem_cons.mp hc with rfl | hc
    · obtain ⟨after, front, hclosed, -, hfront⟩ :=
        Frames.exists_closedPath (Frames.visits_iff.mp hvisits)
      refine ⟨id, next, ⟨front, ?_⟩, Or.inl ⟨_, List.mem_cons_self, rfl, List.mem_cons_self⟩⟩
      rw [hclosed, hfront, List.append_assoc]
      rfl
    · obtain ⟨u, v, hcuv, huv⟩ := ih h.skip hc
      exact ⟨u, v, hcuv, toFollow_of_skip huv⟩
  | case5 remaining id next rest outer hvisits hnext _ ih =>
    obtain ⟨u, v, hcuv, huv⟩ := ih (h.visit hnext) hc
    refine ⟨u, v, hcuv, ?_⟩
    rcases huv with ⟨f, hf, hu, hv⟩ | hu
    · rcases List.mem_cons.mp hf with rfl | hf
      · exact Or.inr (hu ▸ hnext)
      · exact toFollow_of_skip (Or.inl ⟨f, hf, hu, hv⟩)
    · exact Or.inr (List.mem_of_mem_erase hu)
  | case6 remaining id next rest outer hvisits hnext ih =>
    obtain ⟨u, v, hcuv, huv⟩ := ih h.skip hc
    exact ⟨u, v, hcuv, toFollow_of_skip huv⟩

/-- An edge that was followed is not followed again. -/
theorem not_toFollow_skip (h : Scanning g remaining ((id, next :: rest) :: outer)) :
    ¬ToFollow remaining ((id, rest) :: outer) id next := by
  have hid : id ∈ Frames.path ((id, rest) :: outer) := by simp
  rintro (⟨f, hf, hu, hv⟩ | hrem)
  · rcases List.mem_cons.mp hf with rfl | hf
    · exact (h.nodup_pending List.mem_cons_self).notMem hv
    · have hnodup := h.skip.nodup_path
      rw [Frames.path_cons] at hnodup
      refine (List.nodup_append'.mp hnodup).2.2 ?_ (List.mem_singleton_self id)
      exact Frames.mem_path.mpr (List.mem_map.mpr ⟨f, hf, hu⟩)
  · exact h.skip.visited hid hrem

/-- **No report is made twice**: its last step is followed once. -/
theorem nodup_cyclesFrom {frames : Frames} (h : Scanning g remaining frames) :
    (g.cyclesFrom remaining frames).Nodup := by
  fun_induction g.cyclesFrom remaining frames with
  | case1 => exact List.nodup_nil
  | case2 start rest ih => exact ih h.begin
  | case3 remaining id outer ih => exact ih h.leave
  | case4 remaining id next rest outer hvisits ih =>
    -- were the report made again, the edge that closes it would still be to follow
    refine List.nodup_cons.mpr ⟨fun hmem => ?_, ih h.skip⟩
    obtain ⟨u, v, huv, hfollow⟩ := h.skip.exists_last_step hmem
    obtain ⟨after, front, hclosed, -, hfront⟩ :=
      Frames.exists_closedPath (Frames.visits_iff.mp hvisits)
    have hstep : [id, next] <:+ Frames.closedPath ((id, rest) :: outer) next :=
      ⟨front, by rw [hclosed, hfront, List.append_assoc]; rfl⟩
    have heq : [u, v] = [id, next] :=
      (List.suffix_of_suffix_length_le huv hstep le_rfl).eq_of_length rfl
    obtain ⟨rfl, rfl⟩ : u = id ∧ v = next := by simpa using heq
    exact h.not_toFollow_skip hfollow
  | case5 remaining id next rest outer hvisits hnext _ ih => exact ih (h.visit hnext)
  | case6 remaining id next rest outer hvisits hnext ih => exact ih h.skip

/-- **The ids of every report stand in the order in which the scan comes to them**: first those of
the path, then the others as they are visited. -/
theorem exists_visits {frames : Frames} (h : Scanning g remaining frames) :
    ∃ visits : List String, visits.Nodup ∧ visits ⊆ remaining ∧
      ∀ c ∈ g.cyclesFrom remaining frames, c.dropLast.Sublist (frames.path ++ visits) := by
  fun_induction g.cyclesFrom remaining frames with
  | case1 =>
    exact ⟨[], List.nodup_nil, fun _ hx => hx, fun _ hc => absurd hc List.not_mem_nil⟩
  | case2 start rest ih =>
    obtain ⟨visits, hnodup, hsub, hreports⟩ := ih h.begin
    refine ⟨start :: visits, ?_, ?_, hreports⟩
    · exact List.nodup_cons.mpr ⟨fun hs => h.nodup_remaining.notMem (hsub hs), hnodup⟩
    · exact List.cons_subset_cons start hsub
  | case3 remaining id outer ih =>
    obtain ⟨visits, hnodup, hsub, hreports⟩ := ih h.leave
    refine ⟨visits, hnodup, hsub, fun c hc => (hreports c hc).trans ?_⟩
    rw [Frames.path_cons]
    exact (List.sublist_append_left _ _).append (List.Sublist.refl _)
  | case4 remaining id next rest outer hvisits ih =>
    obtain ⟨visits, hnodup, hsub, hreports⟩ := ih h.skip
    refine ⟨visits, hnodup, hsub, fun c hc => ?_⟩
    rw [Frames.path_cons] at hreports ⊢
    rcases List.mem_cons.mp hc with rfl | hc
    · obtain ⟨after, front, hclosed, hsuffix, -⟩ :=
        Frames.exists_closedPath (Frames.visits_iff.mp hvisits)
      rw [hclosed, List.dropLast_concat]
      rw [Frames.path_cons] at hsuffix
      exact hsuffix.sublist.trans (List.sublist_append_left _ _)
    · exact hreports c hc
  | case5 remaining id next rest outer hvisits hnext _ ih =>
    -- the id moves from what is visited later to the end of the path
    obtain ⟨visits, hnodup, hsub, hreports⟩ := ih (h.visit hnext)
    refine ⟨next :: visits, ?_, ?_, fun c hc => ?_⟩
    · exact List.nodup_cons.mpr
        ⟨fun hn => h.nodup_remaining.not_mem_erase (hsub hn), hnodup⟩
    · exact List.cons_subset.mpr
        ⟨hnext, fun x hx => List.mem_of_mem_erase (hsub hx)⟩
    · simpa using hreports c hc
  | case6 remaining id next rest outer hvisits hnext ih =>
    obtain ⟨visits, hnodup, hsub, hreports⟩ := ih h.skip
    refine ⟨visits, hnodup, hsub, fun c hc => ?_⟩
    rw [Frames.path_cons] at hreports ⊢
    exact hreports c hc

end Scanning

end CsdlAudit
