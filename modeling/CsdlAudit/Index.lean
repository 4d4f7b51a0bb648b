import CsdlAudit.Ascending
import CsdlAudit.Natural

/-!
# Indexes

An index files values under keys, and the keys stand in strictly ascending order. `Index.add` puts
a value behind the earlier ones of its key; `Index.insert` keeps the values of a key as a set, in
ascending order. Either changes one key and no other (`Index.get_add`, `Index.get_insert`), so
nothing is lost or moved to another key.
-/

namespace CsdlAudit

/-- **Values filed under ascending keys.** -/
structure Index (κ ν : Type) [Ord κ] where
  /-- The keys with their values, keys ascending. -/
  toList : List (κ × List ν)
  /-- Each key stands once, and smaller keys stand first. -/
  ascending : toList.Pairwise (fun a b => compare a.1 b.1 = .lt)

namespace Index

variable {κ ν : Type} [Ord κ]

/-- The index without keys. -/
def empty : Index κ ν := ⟨[], List.Pairwise.nil⟩

instance : Inhabited (Index κ ν) := ⟨empty⟩

instance [DecidableEq κ] [DecidableEq ν] : DecidableEq (Index κ ν) := fun a b =>
  if h : a.toList = b.toList then
    isTrue (by cases a; cases b; cases h; rfl)
  else
    isFalse (fun e => h (congrArg toList e))

/-- The values filed under a key, `[]` for an absent one. -/
def lookup (k : κ) : List (κ × List ν) → List ν
  | [] => []
  | (k', vs) :: rest => if compare k k' = .eq then vs else lookup k rest

/-- The values filed under a key, `[]` for an absent one. -/
def get (m : Index κ ν) (k : κ) : List ν := lookup k m.toList

/-- The keys, ascending. -/
def keys (m : Index κ ν) : List κ := m.toList.map Prod.fst

/-- Whether the key has an entry. -/
def hasKey (m : Index κ ν) (k : κ) : Bool := m.toList.any (fun e => compare k e.1 = .eq)

/-- All values, key by key. -/
def values (m : Index κ ν) : List ν := m.toList.flatMap Prod.snd

/-- How many values the index holds. -/
def size (m : Index κ ν) : Nat := total (m.toList.map fun e => e.2.length)

/-- Changes the values of a key, making its entry where it is absent. -/
def changeEntry (k : κ) (f : List ν → List ν) : List (κ × List ν) → List (κ × List ν)
  | [] => [(k, f [])]
  | (k', old) :: rest =>
    match compare k k' with
    | .lt => (k, f []) :: (k', old) :: rest
    | .eq => (k', f old) :: rest
    | .gt => (k', old) :: changeEntry k f rest

theorem fst_mem_of_mem_changeEntry {k : κ} {f : List ν → List ν} {l : List (κ × List ν)}
    {e : κ × List ν} (h : e ∈ changeEntry k f l) : e.1 = k ∨ ∃ e' ∈ l, e'.1 = e.1 := by
  induction l with
  | nil =>
    left
    rw [List.mem_singleton.mp h]
  | cons x rest ih =>
    unfold changeEntry at h
    split at h
    · rcases List.mem_cons.mp h with rfl | h
      · exact Or.inl rfl
      · exact Or.inr ⟨e, h, rfl⟩
    · rcases List.mem_cons.mp h with rfl | h
      · exact Or.inr ⟨x, List.mem_cons_self, rfl⟩
      · exact Or.inr ⟨e, List.mem_cons_of_mem _ h, rfl⟩
    · rcases List.mem_cons.mp h with rfl | h
      · exact Or.inr ⟨_, List.mem_cons_self, rfl⟩
      · rcases ih h with h | ⟨e', he', h⟩
        · exact Or.inl h
        · exact Or.inr ⟨e', List.mem_cons_of_mem _ he', h⟩

variable [Std.TransOrd κ]

theorem pairwise_changeEntry {k : κ} {f : List ν → List ν} {l : List (κ × List ν)}
    (h : l.Pairwise (fun a b => compare a.1 b.1 = .lt)) :
    (changeEntry k f l).Pairwise (fun a b => compare a.1 b.1 = .lt) := by
  induction l with
  | nil => simp [changeEntry]
  | cons x rest ih =>
    unfold changeEntry
    split
    · rename_i hk
      refine List.pairwise_cons.mpr ⟨?_, h⟩
      intro e he
      rcases List.mem_cons.mp he with rfl | he
      · exact hk
      · exact Std.TransCmp.lt_trans hk (List.rel_of_pairwise_cons h he)
    · exact List.pairwise_cons.mpr
        ⟨fun e he => List.rel_of_pairwise_cons h he, List.Pairwise.of_cons h⟩
    · rename_i hk
      refine List.pairwise_cons.mpr ⟨?_, ih (List.Pairwise.of_cons h)⟩
      intro e he
      rcases fst_mem_of_mem_changeEntry he with he | ⟨e', he', hee⟩
      · rw [he]
        exact Std.OrientedCmp.gt_iff_lt.mp hk
      · rw [← hee]
        exact List.rel_of_pairwise_cons h he'

/-- The index with other values of a key. -/
def change (m : Index κ ν) (k : κ) (f : List ν → List ν) : Index κ ν :=
  ⟨changeEntry k f m.toList, pairwise_changeEntry m.ascending⟩

/-- **The index with one more value**, behind the earlier ones of its key. -/
def add (m : Index κ ν) (k : κ) (v : ν) : Index κ ν := m.change k (· ++ [v])

/-- The index with further values behind those of a key; `[]` still makes the key's entry. -/
def append (m : Index κ ν) (k : κ) (vs : List ν) : Index κ ν := m.change k (· ++ vs)

/-- **The index with one more value in the set of a key.** -/
def insert [Ord ν] (m : Index κ ν) (k : κ) (v : ν) : Index κ ν := m.change k (Ascending.insert v)

omit [Std.TransOrd κ] in
theorem lookup_eq_nil {k : κ} {l : List (κ × List ν)} (h : ∀ e ∈ l, compare k e.1 = .lt) :
    lookup k l = [] := by
  induction l with
  | nil => rfl
  | cons x rest ih =>
    simp only [lookup, h x List.mem_cons_self]
    simpa using ih (fun e he => h e (List.mem_cons_of_mem _ he))

variable [Std.LawfulEqOrd κ]

theorem lookup_changeEntry {k k' : κ} {f : List ν → List ν} {l : List (κ × List ν)}
    (h : l.Pairwise (fun a b => compare a.1 b.1 = .lt)) :
    lookup k' (changeEntry k f l) =
      if compare k' k = .eq then f (lookup k' l) else lookup k' l := by
  induction l with
  | nil => simp [changeEntry, lookup]
  | cons x rest ih =>
    obtain ⟨kx, old⟩ := x
    have ih := ih (List.Pairwise.of_cons h)
    unfold changeEntry
    split
    · rename_i hk
      by_cases e : compare k' k = .eq
      · have e' := Std.LawfulEqCmp.compare_eq_iff_eq.mp e
        subst e'
        have absent : lookup k' ((kx, old) :: rest) = [] :=
          lookup_eq_nil (fun x hx => by
            rcases List.mem_cons.mp hx with rfl | hx
            · exact hk
            · exact Std.TransCmp.lt_trans hk (List.rel_of_pairwise_cons h hx))
        rw [absent]
        simp [lookup]
      · rw [if_neg e]
        conv => lhs; unfold lookup
        rw [if_neg e]
    · rename_i hk
      have hk := Std.LawfulEqCmp.compare_eq_iff_eq.mp hk
      subst hk
      by_cases e : compare k' k = .eq <;> simp [lookup, e]
    · rename_i hk
      by_cases e : compare k' kx = .eq
      · have e' := Std.LawfulEqCmp.compare_eq_iff_eq.mp e
        subst e'
        have : compare k' k ≠ .eq := by
          intro h'
          have h' := Std.LawfulEqCmp.compare_eq_iff_eq.mp h'
          subst h'
          rw [e] at hk
          exact absurd hk (by decide)
        simp [lookup, this]
      · simp [lookup, e, ih]

/-- **A change is one of one key**: all others keep their values. -/
@[simp] theorem get_change (m : Index κ ν) (k k' : κ) (f : List ν → List ν) :
    (m.change k f).get k' = if compare k' k = .eq then f (m.get k') else m.get k' :=
  lookup_changeEntry m.ascending

/-- **Adding changes one key**: its values gain the new one at the end, all others stay. -/
@[simp] theorem get_add (m : Index κ ν) (k k' : κ) (v : ν) :
    (m.add k v).get k' = if compare k' k = .eq then m.get k' ++ [v] else m.get k' :=
  m.get_change k k' _

/-- **Inserting changes one key**: its set gains the new value, all others stay. -/
@[simp] theorem get_insert [Ord ν] (m : Index κ ν) (k k' : κ) (v : ν) :
    (m.insert k v).get k' =
      if compare k' k = .eq then Ascending.insert v (m.get k') else m.get k' :=
  m.get_change k k' _

end Index

end CsdlAudit
