import CsdlAudit.Proofs.Ascending
import CsdlAudit.Index

/-!
# What an index has

`Index.get_change` says what a change does to the values under a key. The same for the question
whether a key has an entry: `Index.hasKey_change`. The entries themselves are the keys with their
values (`Index.get_of_mem`, `Index.toList_eq_map_keys`), and what is read off them is read off
single keys (`Index.mem_filterMap_toList_iff`).

An index holds what was added to it, each value once (`Index.perm_entries_addAll`), and adding
leaves the earlier values of a key in front (`Index.get_prefix_addAll`). Adding changed values gives
the same entries with their values changed (`Index.toList_addAll_map`).

Of values that are inserted, a key has each once and in ascending order (`Index.mem_get_insertAll`,
`Index.IsSets.insertAll`), so the order in which they come does not show at all
(`Index.insertAll_eq_of_mem_iff`).

Two indexes are *alike* when they have the same keys and file the same values under each, in
whatever order. Adding the same values in another order makes an index that is alike
(`Index.alike_addAll`), and what is read off the entries of alike indexes without regard to the
order of their values is the same (`Index.Alike.filterMap_eq`).
-/

namespace CsdlAudit.Index

variable {κ ν : Type} [Ord κ]

variable [Std.TransOrd κ] [Std.LawfulEqOrd κ]

omit [Std.TransOrd κ] in
theorem any_changeEntry (k k' : κ) (f : List ν → List ν) (l : List (κ × List ν)) :
    (changeEntry k f l).any (fun e => compare k' e.1 = .eq) =
      (decide (compare k' k = .eq) || l.any fun e => compare k' e.1 = .eq) := by
  induction l with
  | nil => simp [changeEntry]
  | cons x rest ih =>
    unfold changeEntry
    split
    · rfl
    · next hk =>
      -- the entry is there already
      obtain rfl := Std.LawfulEqCmp.compare_eq_iff_eq.mp hk
      simp
    · rw [List.any_cons, ih, List.any_cons, Bool.or_left_comm]

/-- **A change makes one key.** -/
@[simp] theorem hasKey_change (m : Index κ ν) (k k' : κ) (f : List ν → List ν) :
    (m.change k f).hasKey k' = (decide (compare k' k = .eq) || m.hasKey k') :=
  any_changeEntry k k' f m.toList

/-- **Adding makes one key**: that of the value. -/
@[simp] theorem hasKey_add (m : Index κ ν) (k k' : κ) (v : ν) :
    (m.add k v).hasKey k' = (decide (compare k' k = .eq) || m.hasKey k') :=
  m.hasKey_change k k' _

/-! ## Entries -/

omit [Std.LawfulEqOrd κ] in
theorem lookup_of_mem {l : List (κ × List ν)} {e : κ × List ν}
    (h : l.Pairwise (fun a b => compare a.1 b.1 = .lt)) (he : e ∈ l) : lookup e.1 l = e.2 := by
  induction l with
  | nil => exact absurd he List.not_mem_nil
  | cons x rest ih =>
    rw [lookup]
    rcases List.mem_cons.mp he with rfl | he
    · rw [if_pos Std.ReflCmp.compare_self]
    · -- the key of a later entry is larger than that of the first
      have hlt : compare x.1 e.1 = .lt := List.rel_of_pairwise_cons h he
      have hne : ¬compare e.1 x.1 = .eq := by
        intro heq
        rw [Std.OrientedCmp.eq_symm heq] at hlt
        exact absurd hlt (by decide)
      rw [if_neg hne]
      exact ih h.of_cons he

omit [Std.LawfulEqOrd κ] in
/-- **An entry has the values of its key.** -/
theorem get_of_mem {m : Index κ ν} {e : κ × List ν} (he : e ∈ m.toList) : m.get e.1 = e.2 :=
  lookup_of_mem m.ascending he

omit [Std.LawfulEqOrd κ] in
/-- **The entries are the keys with their values.** -/
theorem toList_eq_map_keys (m : Index κ ν) : m.toList = m.keys.map fun k => (k, m.get k) := by
  have hentry : ∀ e ∈ m.toList, ((fun k => (k, m.get k)) ∘ Prod.fst) e = id e := fun e he =>
    Prod.ext rfl (get_of_mem he)
  rw [keys, List.map_map, List.map_congr_left hentry, List.map_id]

omit [Std.TransOrd κ] in
/-- A key with values has an entry. -/
theorem mem_toList_of_get_ne_nil {m : Index κ ν} {k : κ} (h : m.get k ≠ []) :
    (k, m.get k) ∈ m.toList := by
  have hlookup : ∀ l : List (κ × List ν), lookup k l ≠ [] → (k, lookup k l) ∈ l := by
    intro l
    induction l with
    | nil => exact fun h => absurd rfl h
    | cons x rest ih =>
      rw [lookup]
      by_cases hk : compare k x.1 = .eq
      · rw [if_pos hk, Std.LawfulEqCmp.compare_eq_iff_eq.mp hk]
        exact fun _ => List.mem_cons_self
      · rw [if_neg hk]
        exact fun h => List.mem_cons_of_mem x (ih h)
  exact hlookup m.toList h

/-- **What is read off the entries is read off single keys**, if nothing is read off a key without
values. -/
theorem mem_filterMap_toList_iff {α : Type} {m : Index κ ν} {f : κ × List ν → Option α}
    (hnil : ∀ k, f (k, []) = none) {c : α} :
    c ∈ m.toList.filterMap f ↔ ∃ k, f (k, m.get k) = some c := by
  rw [List.mem_filterMap]
  constructor
  · rintro ⟨e, he, hc⟩
    exact ⟨e.1, (get_of_mem he).symm ▸ hc⟩
  · rintro ⟨k, hc⟩
    refine ⟨_, mem_toList_of_get_ne_nil fun hget => ?_, hc⟩
    rw [hget, hnil] at hc
    cases hc

omit [Std.TransOrd κ] in
theorem mem_keys_iff {m : Index κ ν} {k : κ} : k ∈ m.keys ↔ m.hasKey k = true := by
  simp only [keys, hasKey, List.mem_map, List.any_eq_true, decide_eq_true_eq,
    Std.LawfulEqCmp.compare_eq_iff_eq]
  exact exists_congr fun e => and_congr_right fun _ => eq_comm

omit [Std.LawfulEqOrd κ] [Std.TransOrd κ] in
theorem pairwise_keys (m : Index κ ν) : m.keys.Pairwise (compare · · = .lt) :=
  List.pairwise_map.mpr m.ascending

omit [Std.LawfulEqOrd κ] in
theorem nodup_keys (m : Index κ ν) : m.keys.Nodup :=
  m.pairwise_keys.imp Ascending.ne_of_compare_lt

/-! ## Adding many values -/

/-- The index with further values, each behind the earlier ones of its key. -/
def addAll (m : Index κ ν) (entries : List (κ × ν)) : Index κ ν :=
  entries.foldl (fun m e => m.add e.1 e.2) m

omit [Std.LawfulEqOrd κ] in
theorem addAll_append (m : Index κ ν) (es fs : List (κ × ν)) :
    m.addAll (es ++ fs) = (m.addAll es).addAll fs :=
  List.foldl_append

/-- **Adding many values** puts those of a key behind the ones that it has. -/
theorem get_addAll (m : Index κ ν) (entries : List (κ × ν)) (k : κ) :
    (m.addAll entries).get k =
      m.get k ++ (entries.filter fun e => compare k e.1 = .eq).map Prod.snd := by
  induction entries generalizing m with
  | nil => exact (List.append_nil _).symm
  | cons e entries ih =>
    rw [addAll, List.foldl_cons, ← addAll, ih, get_add]
    by_cases hk : compare k e.1 = .eq <;> simp [hk]

/-- Changes of many keys, one after the other, make these keys. -/
theorem hasKey_foldl_change (change' : κ × ν → List ν → List ν) (m : Index κ ν)
    (entries : List (κ × ν)) (k : κ) :
    (entries.foldl (fun m e => m.change e.1 (change' e)) m).hasKey k = true ↔
      m.hasKey k = true ∨ ∃ e ∈ entries, compare k e.1 = .eq := by
  induction entries generalizing m with
  | nil => simp
  | cons e entries ih =>
    rw [List.foldl_cons, ih, hasKey_change]
    simp [or_assoc, or_left_comm]

theorem hasKey_addAll (m : Index κ ν) (entries : List (κ × ν)) (k : κ) :
    (m.addAll entries).hasKey k = true ↔
      m.hasKey k = true ∨ ∃ e ∈ entries, compare k e.1 = .eq :=
  hasKey_foldl_change (fun e => (· ++ [e.2])) m entries k

/-- The keys of the values are those that have an entry. -/
theorem mem_keys_addAll_empty {entries : List (κ × ν)} {k : κ} :
    k ∈ (empty.addAll entries).keys ↔ ∃ e ∈ entries, e.1 = k := by
  rw [mem_keys_iff, hasKey_addAll]
  refine (or_iff_right Bool.false_ne_true).trans (exists_congr fun e => and_congr Iff.rfl ?_)
  rw [Std.LawfulEqCmp.compare_eq_iff_eq]
  exact eq_comm

/-- The earlier values of a key stay in front. -/
theorem get_prefix_addAll (m : Index κ ν) (entries : List (κ × ν)) (k : κ) :
    m.get k <+: (m.addAll entries).get k := by
  rw [get_addAll]
  exact List.prefix_append _ _

/-! ## Changing values -/

section Map

variable {μ : Type} {f : ν → μ}

omit [Ord κ] [Std.TransOrd κ] [Std.LawfulEqOrd κ] in
/-- The entries with each value changed. -/
def mapValues (f : ν → μ) (l : List (κ × List ν)) : List (κ × List μ) :=
  l.map fun e => (e.1, e.2.map f)

omit [Std.TransOrd κ] [Std.LawfulEqOrd κ] in
theorem changeEntry_mapValues {g : List ν → List ν} {h : List μ → List μ}
    (hgh : ∀ vs, h (vs.map f) = (g vs).map f) (k : κ) (l : List (κ × List ν)) :
    changeEntry k h (mapValues f l) = mapValues f (changeEntry k g l) := by
  have hnil : h [] = (g []).map f := hgh []
  induction l with
  | nil => simp [changeEntry, mapValues, hnil]
  | cons x rest ih =>
    rw [mapValues, List.map_cons, ← mapValues, changeEntry, changeEntry]
    cases compare k x.1 with
    | lt => simp [mapValues, hnil]
    | eq => simp [mapValues, hgh]
    | gt => exact congrArg (_ :: ·) ih

omit [Std.LawfulEqOrd κ] in
/-- **Adding changed values gives the changed entries.** -/
theorem toList_addAll_map {m : Index κ ν} {n : Index κ μ} (h : n.toList = mapValues f m.toList)
    (entries : List (κ × ν)) :
    (n.addAll (entries.map fun e => (e.1, f e.2))).toList =
      mapValues f (m.addAll entries).toList := by
  induction entries generalizing m n with
  | nil => exact h
  | cons e entries ih =>
    refine ih ?_
    show changeEntry e.1 _ n.toList = mapValues f (changeEntry e.1 _ m.toList)
    rw [h]
    exact changeEntry_mapValues (fun vs => by rw [List.map_append, List.map_singleton]) e.1 _

end Map

/-! ## All values with their keys -/

omit [Std.TransOrd κ] [Std.LawfulEqOrd κ] in
/-- **All values, each with its key.** -/
def entries (m : Index κ ν) : List (κ × ν) := m.toList.flatMap fun e => e.2.map (Prod.mk e.1)

omit [Std.TransOrd κ] [Std.LawfulEqOrd κ] in
theorem size_eq_length_entries (m : Index κ ν) : m.size = m.entries.length := by
  unfold size entries
  induction m.toList with
  | nil => rfl
  | cons e rest ih =>
    rw [List.map_cons, total_cons, ih, List.flatMap_cons, List.length_append, List.length_map]

omit [Std.TransOrd κ] [Std.LawfulEqOrd κ] in
theorem map_snd_entries (m : Index κ ν) : m.entries.map Prod.snd = m.values := by
  rw [entries, values, List.map_flatMap]
  refine List.flatMap_congr fun e _ => ?_
  rw [List.map_map]
  exact List.map_id e.2

omit [Std.TransOrd κ] in
theorem perm_flatMap_changeEntry (k : κ) (v : ν) (l : List (κ × List ν)) :
    ((changeEntry k (· ++ [v]) l).flatMap fun e => e.2.map (Prod.mk e.1)).Perm
      ((l.flatMap fun e => e.2.map (Prod.mk e.1)) ++ [(k, v)]) := by
  induction l with
  | nil => simp [changeEntry]
  | cons x rest ih =>
    unfold changeEntry
    split
    · exact List.perm_append_comm
    · next hk =>
      obtain rfl := Std.LawfulEqCmp.compare_eq_iff_eq.mp hk
      simp only [List.flatMap_cons, List.map_append, List.append_assoc, List.map_singleton]
      exact List.perm_append_comm.append_left _
    · rw [List.flatMap_cons, List.flatMap_cons, List.append_assoc]
      exact ih.append_left _

/-- **An index holds what was added**, each value once under its key. -/
theorem perm_entries_addAll (m : Index κ ν) (entries : List (κ × ν)) :
    (m.addAll entries).entries.Perm (m.entries ++ entries) := by
  induction entries generalizing m with
  | nil => rw [List.append_nil]; rfl
  | cons e entries ih =>
    rw [addAll, List.foldl_cons, ← addAll]
    refine (ih _).trans ?_
    rw [List.append_cons]
    exact (perm_flatMap_changeEntry e.1 e.2 m.toList).append_right _

/-! ## Indexes that file the same -/

/-- **Two indexes file the same**, up to the order of the values of a key. -/
structure Alike (m n : Index κ ν) : Prop where
  /-- They have the same keys. -/
  keys : m.keys = n.keys
  /-- A key has the same values, in some order. -/
  get : ∀ k, (m.get k).Perm (n.get k)

/-- **The order in which values are added shows only in the order of the values of a key.** -/
theorem alike_addAll {m : Index κ ν} {es fs : List (κ × ν)} (h : es.Perm fs) :
    Alike (m.addAll es) (m.addAll fs) where
  keys := by
    refine Ascending.eq_of_pairwise (pairwise_keys _) (pairwise_keys _) fun k => ?_
    rw [mem_keys_iff, mem_keys_iff, hasKey_addAll, hasKey_addAll]
    exact or_congr Iff.rfl (exists_congr fun e => and_congr_left fun _ => h.mem_iff)
  get := by
    intro k
    rw [get_addAll, get_addAll]
    exact ((h.filter _).map _).append_left _

omit [Std.LawfulEqOrd κ] in
/-- **What is read off entries without regard to the order of their values** is the same for alike
indexes. -/
theorem Alike.filterMap_eq {α : Type} {m n : Index κ ν} (h : Alike m n)
    {f : κ × List ν → Option α} (hf : ∀ k {vs ws : List ν}, vs.Perm ws → f (k, vs) = f (k, ws)) :
    m.toList.filterMap f = n.toList.filterMap f := by
  rw [toList_eq_map_keys m, toList_eq_map_keys n, h.keys, List.filterMap_map, List.filterMap_map]
  exact List.filterMap_congr fun k _ => hf k (h.get k)

/-! ## Sets of values -/

section Sets

variable [Ord ν]

/-- **The values of each key are a set**: they ascend, so none is there twice. -/
def IsSets (m : Index κ ν) : Prop := ∀ k, (m.get k).Pairwise (compare · · = .lt)

/-- The index with further values, each in the set of its key. -/
def insertAll (m : Index κ ν) (entries : List (κ × ν)) : Index κ ν :=
  entries.foldl (fun m e => m.insert e.1 e.2) m

omit [Std.LawfulEqOrd κ] in
theorem insertAll_append (m : Index κ ν) (es fs : List (κ × ν)) :
    m.insertAll (es ++ fs) = (m.insertAll es).insertAll fs :=
  List.foldl_append

theorem hasKey_insertAll (m : Index κ ν) (entries : List (κ × ν)) (k : κ) :
    (m.insertAll entries).hasKey k = true ↔
      m.hasKey k = true ∨ ∃ e ∈ entries, compare k e.1 = .eq :=
  hasKey_foldl_change (fun e => Ascending.insert e.2) m entries k

omit [Std.LawfulEqOrd κ] [Std.TransOrd κ] in
theorem isSets_empty : (empty : Index κ ν).IsSets := fun _ => List.Pairwise.nil

variable [Std.TransOrd ν] [Std.LawfulEqOrd ν]

/-- Inserting keeps sets. -/
theorem IsSets.insert {m : Index κ ν} (h : m.IsSets) (k : κ) (v : ν) : (m.insert k v).IsSets := by
  intro k'
  rw [get_insert]
  split
  · exact Ascending.pairwise_insert (h k')
  · exact h k'

theorem IsSets.insertAll {m : Index κ ν} (h : m.IsSets) (entries : List (κ × ν)) :
    (m.insertAll entries).IsSets :=
  List.foldlRecOn (motive := IsSets) entries _ h fun _ h e _ => h.insert e.1 e.2

omit [Std.TransOrd ν] in
/-- **A key has the values that were inserted under it**, and those from before. -/
theorem mem_get_insertAll (m : Index κ ν) (entries : List (κ × ν)) (k : κ) (v : ν) :
    v ∈ (m.insertAll entries).get k ↔ v ∈ m.get k ∨ (k, v) ∈ entries := by
  induction entries generalizing m with
  | nil => simp [insertAll]
  | cons e entries ih =>
    obtain ⟨k', v'⟩ := e
    rw [insertAll, List.foldl_cons, ← insertAll, ih, get_insert]
    by_cases hk : compare k k' = .eq
    · obtain rfl := Std.LawfulEqCmp.compare_eq_iff_eq.mp hk
      simp [or_assoc, or_left_comm]
    · have hne : k ≠ k' := fun e => hk (Std.LawfulEqCmp.compare_eq_iff_eq.mpr e)
      simp [hk, hne]

omit [Std.LawfulEqOrd κ] [Std.LawfulEqOrd ν] in
/-- **An index of sets is told by its keys and their members.** -/
theorem eq_of_isSets {m n : Index κ ν} (hm : m.IsSets) (hn : n.IsSets)
    (hkeys : ∀ k, k ∈ m.keys ↔ k ∈ n.keys) (hget : ∀ k v, v ∈ m.get k ↔ v ∈ n.get k) :
    m = n := by
  have hkeys : m.keys = n.keys :=
    Ascending.eq_of_pairwise (pairwise_keys m) (pairwise_keys n) hkeys
  have hlist : m.toList = n.toList := by
    rw [toList_eq_map_keys m, toList_eq_map_keys n, hkeys]
    refine List.map_congr_left fun k _ => Prod.ext rfl ?_
    exact Ascending.eq_of_pairwise (hm k) (hn k) (hget k)
  cases m
  cases n
  cases hlist
  rfl

/-- **The order in which values are inserted does not show**, nor how often. -/
theorem insertAll_eq_of_mem_iff {m : Index κ ν} (hm : m.IsSets) {es fs : List (κ × ν)}
    (h : ∀ e, e ∈ es ↔ e ∈ fs) : m.insertAll es = m.insertAll fs := by
  refine eq_of_isSets (hm.insertAll es) (hm.insertAll fs) (fun k => ?_) fun k v => ?_
  · rw [mem_keys_iff, mem_keys_iff, hasKey_insertAll, hasKey_insertAll]
    exact or_congr Iff.rfl (exists_congr fun e => and_congr_left fun _ => h e)
  · rw [mem_get_insertAll, mem_get_insertAll, h]

end Sets

end CsdlAudit.Index
