import CsdlAudit.Graph.Order
import CsdlAudit.Proofs.Graph.Closure

/-!
# The order exists on graphs without cycles

The walk that lists nodes as it finishes them keeps a stack. An id is *open* when it was discovered
and is not finished; it waits on the stack, and what stands above its first place there was put
there on its behalf, so the open id reaches it (`Descent.reaches`). On a graph without cycles this
keeps an open id from leading to another one below it, so all that an id leads to is finished before
the id is (`Descent.ordered`). Hence the walk itself lists dependencies before dependents
(`Graph.idxOf_finishFrom_lt`), and the check at its end turns away graphs with a cycle only
(`Graph.isSome_order?_iff`). Whatever the graph, the walk lists each node once
(`Graph.perm_finishFrom`).
-/

namespace CsdlAudit

open Relation

namespace Graph

theorem isOrder_iff {g : Graph} {list : List String} :
    g.isOrder list = true ↔ ∀ {a b}, g.Leads a b → list.idxOf b < list.idxOf a := by
  simp only [isOrder, List.all_eq_true, decide_eq_true_eq, Leads]
  constructor
  · rintro h a b ⟨e, he, rfl, rfl⟩
    exact h e he
  · intro h e he
    exact h ⟨e, he, rfl, rfl⟩

end Graph

/-! ## Every node is finished once -/

/-- **What holds of a walk on any graph**: no node is lost and none is finished twice. -/
structure Finishing (g : Graph) (remaining stack finished : List String) : Prop where
  /-- No id is to be discovered twice. -/
  nodup_remaining : remaining.Nodup
  /-- No id is finished twice. -/
  nodup_finished : finished.Nodup
  /-- Nodes only are to be discovered. -/
  remaining_subset : remaining ⊆ g.ids
  /-- Nodes only are waiting. -/
  stack_subset : stack ⊆ g.ids
  /-- Nodes only are finished. -/
  finished_subset : finished ⊆ g.ids
  /-- Each node is to be discovered, waiting or finished. -/
  cover : ∀ {id}, id ∈ g.ids → id ∈ remaining ∨ id ∈ stack ∨ id ∈ finished

namespace Finishing

variable {g : Graph} {remaining below finished : List String} {id : String}

/-- An id that is to be discovered may be put on the stack. -/
theorem push {stack : List String} (h : Finishing g remaining stack finished)
    (hid : id ∈ remaining) : Finishing g remaining (id :: stack) finished where
  nodup_remaining := h.nodup_remaining
  nodup_finished := h.nodup_finished
  remaining_subset := h.remaining_subset
  stack_subset := List.cons_subset.mpr ⟨h.remaining_subset hid, h.stack_subset⟩
  finished_subset := h.finished_subset
  cover := fun hx => (h.cover hx).imp_right (Or.imp_left (List.mem_cons_of_mem id))

theorem discover (h : Finishing g remaining (id :: below) finished) (hg : g.WellFormed) :
    Finishing g (remaining.erase id)
      ((g.targets id).filter (remaining.erase id).contains ++ id :: below) finished where
  nodup_remaining := h.nodup_remaining.erase id
  nodup_finished := h.nodup_finished
  remaining_subset := fun _ hx => h.remaining_subset (List.mem_of_mem_erase hx)
  stack_subset := List.append_subset.mpr
    ⟨fun _ hx => hg.target_mem (Graph.mem_targets.mp (List.mem_filter.mp hx).1), h.stack_subset⟩
  finished_subset := h.finished_subset
  cover := by
    intro x hx
    by_cases hne : x = id
    · exact Or.inr (Or.inl (by simp [hne]))
    · rcases h.cover hx with hx | hx | hx
      · exact Or.inl ((List.mem_erase_of_ne hne).mpr hx)
      · exact Or.inr (Or.inl (List.mem_append_right _ hx))
      · exact Or.inr (Or.inr hx)

theorem finish (h : Finishing g remaining (id :: below) finished) :
    Finishing g remaining below
      (if finished.contains id then finished else finished ++ [id]) where
  nodup_remaining := h.nodup_remaining
  nodup_finished := by
    split
    · exact h.nodup_finished
    · next hnew =>
      rw [List.contains_iff_mem] at hnew
      exact List.nodup_append'.mpr
        ⟨h.nodup_finished, List.nodup_singleton id, List.disjoint_singleton.mpr hnew⟩
  remaining_subset := h.remaining_subset
  stack_subset := (List.cons_subset.mp h.stack_subset).2
  finished_subset := by
    split
    · exact h.finished_subset
    · refine List.append_subset.mpr ⟨h.finished_subset, ?_⟩
      exact List.cons_subset.mpr ⟨(List.cons_subset.mp h.stack_subset).1, List.nil_subset _⟩
  cover := by
    intro x hx
    refine (h.cover hx).imp_right (fun hx => ?_)
    split
    · next hold =>
      rw [List.contains_iff_mem] at hold
      rcases hx with hx | hx
      · rcases List.mem_cons.mp hx with rfl | hx
        · exact Or.inr hold
        · exact Or.inl hx
      · exact Or.inr hx
    · rw [List.mem_append, List.mem_singleton]
      rcases hx with hx | hx
      · exact (List.mem_cons.mp hx).symm.imp_right Or.inr
      · exact Or.inr (Or.inl hx)

end Finishing

/-! ## What an id leads to is finished before it -/

/-- **An open id at its first place on the stack**: it was discovered, is not finished, and `above`
stands before it. -/
structure Open (remaining stack finished above : List String) (id : String) : Prop where
  /-- The id stands behind `above`. -/
  place : ∃ below, stack = above ++ id :: below
  /-- It does not stand before. -/
  first : id ∉ above
  /-- It was discovered. -/
  discovered : id ∉ remaining
  /-- It is not finished. -/
  unfinished : id ∉ finished

namespace Open

variable {remaining stack below finished above : List String} {id n : String}

/-- An id that is not discovered does not become open by being put on the stack. -/
theorem of_push (h : Open remaining (n :: stack) finished above id) (hn : n ∈ remaining) :
    ∃ above', Open remaining stack finished above' id ∧ above = n :: above' := by
  obtain ⟨⟨below, hplace⟩, hfirst, hdisc, hunf⟩ := h
  cases above with
  | nil => exact absurd ((List.cons.inj hplace).1 ▸ hn) hdisc
  | cons x above' =>
    obtain ⟨rfl, hrest⟩ := List.cons.inj hplace
    exact ⟨above', ⟨⟨below, hrest⟩, fun hx => hfirst (List.mem_cons_of_mem _ hx), hdisc, hunf⟩, rfl⟩

/-- After an id is discovered it is the only new open id. -/
theorem of_discover {fresh : List String} (hfresh : fresh ⊆ remaining.erase n)
    (h : Open (remaining.erase n) (fresh ++ n :: below) finished above id) :
    id = n ∧ above = fresh ∨
      ∃ above', Open remaining (n :: below) finished (n :: above') id ∧
        above = fresh ++ n :: above' := by
  obtain ⟨⟨tail, hplace⟩, hfirst, hdisc, hunf⟩ := h
  rcases List.append_eq_append_iff.mp hplace with ⟨upper, rfl, hupper⟩ | ⟨lower, rfl, hlower⟩
  · cases upper with
    | nil => exact Or.inl ⟨(List.cons.inj hupper).1.symm, List.append_nil _⟩
    | cons x above' =>
      obtain ⟨rfl, hrest⟩ := List.cons.inj hupper
      have hne : id ≠ n := fun e => hfirst (by simp [e])
      refine Or.inr ⟨above', ⟨⟨tail, by rw [hrest]; rfl⟩, ?_, ?_, hunf⟩, rfl⟩
      · exact fun hx => hfirst (List.mem_append_right _ hx)
      · exact fun hx => hdisc ((List.mem_erase_of_ne hne).mpr hx)
  · cases lower with
    | nil => exact Or.inl ⟨(List.cons.inj hlower).1, (List.append_nil _).symm⟩
    | cons x lower =>
      -- the id would be one of those put on the stack, and they are not discovered
      obtain ⟨rfl, -⟩ := List.cons.inj hlower
      exact absurd (hfresh (by simp)) hdisc

/-- After an id is finished the open ids are those that were open below it. -/
theorem of_finish {finished' : List String} (hn : n ∈ finished') (hsub : finished ⊆ finished')
    (h : Open remaining below finished' above id) :
    Open remaining (n :: below) finished (n :: above) id := by
  obtain ⟨⟨tail, hplace⟩, hfirst, hdisc, hunf⟩ := h
  refine ⟨⟨tail, by rw [hplace]; rfl⟩, fun hx => ?_, hdisc, fun hx => hunf (hsub hx)⟩
  rcases List.mem_cons.mp hx with rfl | hx
  · exact hunf hn
  · exact hfirst hx

end Open

/-- **What holds of a walk on a graph without cycles.** -/
structure Descent (g : Graph) (remaining stack finished : List String) : Prop where
  /-- What stands above an open id is reached by it. -/
  reaches : ∀ {above id}, Open remaining stack finished above id → ∀ x ∈ above, g.Reaches id x
  /-- What an open id leads to is finished or stands above it. -/
  targets : ∀ {above id}, Open remaining stack finished above id → ∀ {b}, g.Leads id b →
    b ∈ finished ∨ b ∈ above
  /-- What a finished id leads to was finished before. -/
  ordered : ∀ {a b}, g.Leads a b → a ∈ finished →
    b ∈ finished ∧ finished.idxOf b < finished.idxOf a

namespace Descent

variable {g : Graph} {remaining below finished : List String} {id : String}

theorem initial (g : Graph) : Descent g g.ids [] [] where
  reaches := fun h => by
    obtain ⟨below, hplace⟩ := h.place
    simp at hplace
  targets := fun h => by
    obtain ⟨below, hplace⟩ := h.place
    simp at hplace
  ordered := fun _ ha => absurd ha List.not_mem_nil

/-- The first id of a walk is put on the empty stack. -/
theorem push (h : Descent g remaining [] finished) (hid : id ∈ remaining) :
    Descent g remaining [id] finished where
  reaches := fun ho => by
    obtain ⟨_, ho, -⟩ := ho.of_push hid
    obtain ⟨below, hplace⟩ := ho.place
    simp at hplace
  targets := fun ho => by
    obtain ⟨_, ho, -⟩ := ho.of_push hid
    obtain ⟨below, hplace⟩ := ho.place
    simp at hplace
  ordered := h.ordered

theorem discover (h : Descent g remaining (id :: below) finished)
    (hf : Finishing g remaining (id :: below) finished) (hg : g.WellFormed)
    (hacyclic : ∀ a, ¬g.Reaches a a) :
    Descent g (remaining.erase id)
      ((g.targets id).filter (remaining.erase id).contains ++ id :: below) finished := by
  have hfresh : (g.targets id).filter (remaining.erase id).contains ⊆ remaining.erase id :=
    fun x hx => List.contains_iff_mem.mp (List.mem_filter.mp hx).2
  have hleads : ∀ x ∈ (g.targets id).filter (remaining.erase id).contains, g.Leads id x :=
    fun x hx => Graph.mem_targets.mp (List.mem_filter.mp hx).1
  refine ⟨?_, ?_, h.ordered⟩
  · intro above t ho x hx
    rcases ho.of_discover hfresh with ⟨rfl, rfl⟩ | ⟨above', hold, rfl⟩
    · exact TransGen.single (hleads x hx)
    · rcases List.mem_append.mp hx with hx | hx
      · exact (h.reaches hold id List.mem_cons_self).tail (hleads x hx)
      · exact h.reaches hold x hx
  · intro above t ho b hb
    rcases ho.of_discover hfresh with ⟨rfl, rfl⟩ | ⟨above', hold, rfl⟩
    · have hne : b ≠ t := (hg.ne_of_leads hb).symm
      by_cases hrem : b ∈ remaining
      · refine Or.inr (List.mem_filter.mpr ⟨Graph.mem_targets.mpr hb, ?_⟩)
        exact List.contains_iff_mem.mpr ((List.mem_erase_of_ne hne).mpr hrem)
      · by_cases hfin : b ∈ finished
        · exact Or.inl hfin
        · -- an open id below would reach `t` and so close a cycle
          have hstack := ((hf.cover (hg.target_mem hb)).resolve_left hrem).resolve_right hfin
          obtain ⟨above, tail, hplace, hfirst⟩ := List.eq_append_cons_of_mem hstack
          have hbt : t ∈ above := by
            cases above with
            | nil => exact absurd (List.cons.inj hplace).1.symm hne
            | cons y above => rw [(List.cons.inj hplace).1]; exact List.mem_cons_self
          have hreach := h.reaches ⟨⟨tail, hplace⟩, hfirst, hrem, hfin⟩ t hbt
          exact absurd (hreach.tail hb) (hacyclic b)
    · exact (h.targets hold hb).imp_right (List.mem_append_right _)

theorem finish (h : Descent g remaining (id :: below) finished) (hid : id ∉ remaining) :
    Descent g remaining below
      (if finished.contains id then finished else finished ++ [id]) := by
  have hmem : id ∈ (if finished.contains id then finished else finished ++ [id]) := by
    split
    · next hold => exact List.contains_iff_mem.mp hold
    · simp
  have hsub : finished ⊆ (if finished.contains id then finished else finished ++ [id]) := by
    split
    · exact fun _ hx => hx
    · exact List.subset_append_left _ _
  refine ⟨?_, ?_, ?_⟩
  · intro above t ho x hx
    exact h.reaches (ho.of_finish hmem hsub) x (List.mem_cons_of_mem _ hx)
  · intro above t ho b hb
    rcases h.targets (ho.of_finish hmem hsub) hb with hb | hb
    · exact Or.inl (hsub hb)
    · rcases List.mem_cons.mp hb with rfl | hb
      · exact Or.inl hmem
      · exact Or.inr hb
  · split
    · exact h.ordered
    · next hnew =>
      rw [List.contains_iff_mem] at hnew
      intro a b hab ha
      rcases List.mem_append.mp ha with ha | ha
      · obtain ⟨hb, hlt⟩ := h.ordered hab ha
        refine ⟨List.mem_append_left _ hb, ?_⟩
        rwa [List.idxOf_append_of_mem hb, List.idxOf_append_of_mem ha]
      · -- nothing stands above the id that is finished now, so all that it leads to is finished
        obtain rfl := List.mem_singleton.mp ha
        have hopen : Open remaining (a :: below) finished [] a :=
          ⟨⟨below, rfl⟩, List.not_mem_nil, hid, hnew⟩
        have hb := (h.targets hopen hab).resolve_right List.not_mem_nil
        refine ⟨List.mem_append_left _ hb, ?_⟩
        rw [List.idxOf_append_of_mem hb, List.idxOf_append_of_notMem hnew]
        exact Nat.lt_add_right _ (List.idxOf_lt_length_of_mem hb)

end Descent

/-! ## The order -/

namespace Graph

variable {g : Graph}

/-- A walk ends with every node finished once. -/
theorem perm_finishFrom_of_finishing (hg : g.WellFormed) {remaining stack finished : List String}
    (h : Finishing g remaining stack finished) :
    (g.finishFrom remaining stack finished).Perm g.ids := by
  fun_induction g.finishFrom remaining stack finished with
  | case1 finished =>
    refine (List.perm_ext_iff_of_nodup h.nodup_finished hg.nodup_ids).mpr (fun x => ?_)
    exact ⟨fun hx => h.finished_subset hx, fun hx => by simpa using h.cover hx⟩
  | case2 finished start rest ih =>
    have := (h.push List.mem_cons_self).discover hg
    rw [List.erase_cons_head] at this
    exact ih this
  | case3 finished id below remaining hid _ rest ih => exact ih (h.discover hg)
  | case4 finished id below remaining hid ih => exact ih h.finish

theorem perm_finishFrom (hg : g.WellFormed) : (g.finishFrom g.ids [] []).Perm g.ids :=
  perm_finishFrom_of_finishing hg
    ⟨hg.nodup_ids, List.nodup_nil, fun _ hx => hx, List.nil_subset _, List.nil_subset _, Or.inl⟩

/-- On a graph without cycles a walk ends with each id behind what it leads to. -/
theorem idxOf_lt_of_descent (hg : g.WellFormed) (hacyclic : ∀ a, ¬g.Reaches a a)
    {remaining stack finished : List String} (hf : Finishing g remaining stack finished)
    (h : Descent g remaining stack finished) {a b : String} (hab : g.Leads a b) :
    (g.finishFrom remaining stack finished).idxOf b
      < (g.finishFrom remaining stack finished).idxOf a := by
  fun_induction g.finishFrom remaining stack finished with
  | case1 finished => exact (h.ordered hab (by simpa using hf.cover (hg.source_mem hab))).2
  | case2 finished start rest ih =>
    have hstart : start ∈ start :: rest := List.mem_cons_self
    have hf' := (hf.push hstart).discover hg
    have h' := (h.push hstart).discover (hf.push hstart) hg hacyclic
    rw [List.erase_cons_head] at hf' h'
    exact ih hf' h'
  | case3 finished id below remaining hid _ rest ih =>
    exact ih (hf.discover hg) (h.discover hf hg hacyclic)
  | case4 finished id below remaining hid ih => exact ih hf.finish (h.finish hid)

/-- **On a graph without cycles the walk lists dependencies before dependents**, without any check
at its end. -/
theorem idxOf_finishFrom_lt (hg : g.WellFormed) (hacyclic : ∀ a, ¬g.Reaches a a) {a b : String}
    (hab : g.Leads a b) :
    (g.finishFrom g.ids [] []).idxOf b < (g.finishFrom g.ids [] []).idxOf a :=
  idxOf_lt_of_descent hg hacyclic
    ⟨hg.nodup_ids, List.nodup_nil, fun _ hx => hx, List.nil_subset _, List.nil_subset _, Or.inl⟩
    (Descent.initial g) hab

theorem order?_eq_some {list : List String} :
    g.order? = some list ↔ list = g.finishFrom g.ids [] [] ∧ g.isOrder list = true := by
  simp only [order?, Option.ite_none_right_eq_some, Option.some.injEq]
  exact ⟨fun ⟨ho, he⟩ => ⟨he.symm, he ▸ ho⟩, fun ⟨he, ho⟩ => ⟨he ▸ ho, he.symm⟩⟩

/-- **There is an order just when no node reaches itself.** -/
theorem isSome_order?_iff (hg : g.WellFormed) :
    g.order?.isSome = true ↔ ∀ a, ¬g.Reaches a a := by
  constructor
  · intro h a haa
    obtain ⟨list, hlist⟩ := Option.isSome_iff_exists.mp h
    have hstep : ∀ {x y}, g.Leads x y → list.idxOf y < list.idxOf x :=
      isOrder_iff.mp (order?_eq_some.mp hlist).2
    have hlt : ∀ {x y}, g.Reaches x y → list.idxOf y < list.idxOf x := by
      intro x y hxy
      induction hxy with
      | single hab => exact hstep hab
      | tail _ hbc ih => exact Nat.lt_trans (hstep hbc) ih
    exact Nat.lt_irrefl _ (hlt haa)
  · intro hacyclic
    exact Option.isSome_iff_exists.mpr ⟨_, order?_eq_some.mpr
      ⟨rfl, isOrder_iff.mpr (idxOf_finishFrom_lt hg hacyclic)⟩⟩

/-- **An order lists every node once, dependencies before dependents.** -/
theorem order?_spec (hg : g.WellFormed) {list : List String} (h : g.order? = some list) :
    list.Perm g.ids ∧ ∀ {a b}, g.Leads a b → list.idxOf b < list.idxOf a := by
  obtain ⟨rfl, ho⟩ := order?_eq_some.mp h
  exact ⟨perm_finishFrom hg, isOrder_iff.mp ho⟩

end Graph

end CsdlAudit
