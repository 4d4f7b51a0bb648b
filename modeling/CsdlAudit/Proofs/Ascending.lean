import Mathlib.Data.List.Nodup
import Mathlib.Data.String.Basic
import CsdlAudit.Ascending

/-!
# Ascending lists of texts

An ascending list is determined by its members, and the list that `Ascending.ofList` builds of texts
ascends in the usual order of texts. Of entries with keys no more is needed for a search by key than
that the keys are unique (`find?_key_eq_some_iff`).
-/

namespace CsdlAudit

/-! ## Entries with unique keys -/

/-- **Where keys are unique, a search by key finds whatever has it.** -/
theorem find?_key_eq_some_iff {α : Type} {f : α → String} {as : List α}
    (hnodup : (as.map f).Nodup) {key : String} {a : α} :
    as.find? (fun a => f a == key) = some a ↔ a ∈ as ∧ f a = key := by
  have found : ∀ {b}, as.find? (fun a => f a == key) = some b → b ∈ as ∧ f b = key := fun hb =>
    ⟨List.mem_of_find?_eq_some hb, by simpa using List.find?_some hb⟩
  refine ⟨found, ?_⟩
  rintro ⟨ha, rfl⟩
  have hsome : (as.find? fun b => f b == f a).isSome = true :=
    List.find?_isSome.mpr ⟨a, ha, by simp⟩
  obtain ⟨b, hb⟩ := Option.isSome_iff_exists.mp hsome
  obtain ⟨hmem, hkey⟩ := found hb
  rw [hb, List.inj_on_of_nodup_map hnodup hmem ha hkey]

/-- **Where keys are unique, a search by key does not depend on the order.** -/
theorem find?_key_eq_of_perm {α : Type} {as bs : List (String × α)} (hperm : as.Perm bs)
    (hnodup : (as.map Prod.fst).Nodup) (key : String) :
    as.find? (fun a => a.1 == key) = bs.find? (fun a => a.1 == key) := by
  have hnodup' : (bs.map Prod.fst).Nodup := (hperm.map _).nodup_iff.mp hnodup
  refine Option.ext fun a => ?_
  rw [find?_key_eq_some_iff hnodup, find?_key_eq_some_iff hnodup', hperm.mem_iff]

namespace Ascending

/-- What stands in order differs. -/
theorem ne_of_compare_lt {α : Type} [Ord α] [Std.ReflOrd α] {a b : α} (h : compare a b = .lt) :
    a ≠ b := by
  rintro rfl
  exact absurd (Std.ReflOrd.compare_self.symm.trans h) (by decide)

/-- The members of an ascending list of texts are in their usual order. -/
theorem pairwise_lt_ofList (xs : List String) : (ofList xs).Pairwise (· < ·) :=
  (pairwise_ofList xs).imp Std.LawfulLTCmp.eq_lt_iff_lt.mp

theorem nodup_ofList (xs : List String) : (ofList xs).Nodup :=
  (pairwise_lt_ofList xs).imp (fun hab => ne_of_lt hab)

/-- **Entries in the order of their keys stand in no other order.** -/
theorem eq_of_perm {κ ν : Type} [Ord κ] [Std.TransOrd κ] {es fs : List (κ × ν)}
    (he : es.Pairwise fun a b => compare a.1 b.1 = .lt)
    (hf : fs.Pairwise fun a b => compare a.1 b.1 = .lt) (h : es.Perm fs) : es = fs := by
  have hasymm : ∀ a b : κ × ν, compare a.1 b.1 = .lt → compare b.1 a.1 = .lt → a = b :=
    fun _ _ hab hba => absurd hba (Std.OrientedCmp.not_lt_of_lt hab)
  exact h.eq_of_pairwise (fun a b _ _ => hasymm a b) he hf

/-- **Ascending lists with the same members are equal.** -/
theorem eq_of_pairwise {α : Type} [Ord α] [Std.TransOrd α] {xs ys : List α}
    (hx : xs.Pairwise (compare · · = .lt)) (hy : ys.Pairwise (compare · · = .lt))
    (h : ∀ x, x ∈ xs ↔ x ∈ ys) : xs = ys := by
  have hperm : xs.Perm ys :=
    (List.perm_ext_iff_of_nodup (hx.imp ne_of_compare_lt) (hy.imp ne_of_compare_lt)).mpr h
  have hasymm : ∀ a b : α, compare a b = .lt → compare b a = .lt → a = b := fun _ _ hab hba =>
    absurd hba (Std.OrientedCmp.not_lt_of_lt hab)
  exact hperm.eq_of_pairwise (fun a b _ _ => hasymm a b) hx hy

/-- Texts in ascending order are told by their members. -/
theorem eq_of_mem_iff {xs ys : List String} (hx : xs.Pairwise (· < ·)) (hy : ys.Pairwise (· < ·))
    (h : ∀ x, x ∈ xs ↔ x ∈ ys) : xs = ys :=
  eq_of_pairwise (hx.imp Std.LawfulLTCmp.eq_lt_iff_lt.mpr)
    (hy.imp Std.LawfulLTCmp.eq_lt_iff_lt.mpr) h

/-- **The order of a list does not matter to the set of its members.** -/
theorem ofList_eq_of_mem_iff {α : Type} [Ord α] [Std.LawfulEqOrd α] [Std.TransOrd α]
    {xs ys : List α} (h : ∀ x, x ∈ xs ↔ x ∈ ys) : ofList xs = ofList ys :=
  eq_of_pairwise (pairwise_ofList xs) (pairwise_ofList ys) fun x => by
    rw [mem_ofList, mem_ofList, h]

theorem ofList_subset {α : Type} [Ord α] [Std.LawfulEqOrd α] {xs ys : List α} (h : xs ⊆ ys) :
    ofList xs ⊆ ofList ys :=
  fun _ hx => mem_ofList.mpr (h (mem_ofList.mp hx))

/-! ## Sorting with repeats -/

theorem perm_place {α : Type} [Ord α] (a : α) (s : List α) : (place a s).Perm (a :: s) := by
  induction s with
  | nil => exact .refl _
  | cons b rest ih =>
    unfold place
    split
    · exact (ih.cons b).trans (.swap a b rest)
    · exact .refl _

/-- **Sorting drops nothing** and adds nothing. -/
theorem perm_sort {α : Type} [Ord α] (xs : List α) : (sort xs).Perm xs := by
  induction xs with
  | nil => exact .refl _
  | cons a rest ih => exact (perm_place a _).trans (ih.cons a)

/-- A member that is not there yet takes one place, repeats allowed or not. -/
theorem place_eq_insert {α : Type} [Ord α] [Std.LawfulEqOrd α] {a : α} {s : List α}
    (h : a ∉ s) : place a s = insert a s := by
  induction s with
  | nil => rfl
  | cons b rest ih =>
    obtain ⟨hne, hrest⟩ := not_or.mp (mt List.mem_cons.mpr h)
    unfold place insert
    cases hab : compare a b with
    | lt => rfl
    | eq => exact absurd (Std.LawfulEqCmp.compare_eq_iff_eq.mp hab) hne
    | gt => exact congrArg (b :: ·) (ih hrest)

/-- **Without repeats the sorted list is the set** of the members. -/
theorem sort_eq_ofList {α : Type} [Ord α] [Std.LawfulEqOrd α] {xs : List α} (h : xs.Nodup) :
    sort xs = ofList xs := by
  induction xs with
  | nil => rfl
  | cons a rest ih =>
    obtain ⟨ha, hrest⟩ := List.nodup_cons.mp h
    show place a (sort rest) = insert a (ofList rest)
    rw [ih hrest]
    exact place_eq_insert (mt mem_ofList.mp ha)

/-- An ascending list has more than one member when two of them differ. -/
theorem one_lt_length_ofList {α : Type} [Ord α] [Std.LawfulEqOrd α] [Std.TransOrd α]
    {xs : List α} : 1 < (ofList xs).length ↔ ∃ a ∈ xs, ∃ b ∈ xs, a ≠ b := by
  constructor
  · intro h
    have hasc := pairwise_ofList xs
    match hl : ofList xs, h with
    | a :: b :: rest, _ =>
      rw [hl] at hasc
      have hab : compare a b = .lt := List.rel_of_pairwise_cons hasc List.mem_cons_self
      exact ⟨a, mem_ofList.mp (by simp [hl]), b, mem_ofList.mp (by simp [hl]),
        ne_of_compare_lt hab⟩
  · rintro ⟨a, ha, b, hb, hne⟩
    rw [← mem_ofList] at ha hb
    match hl : ofList xs with
    | [] => exact absurd ha (by simp [hl])
    | [c] =>
      rw [hl, List.mem_singleton] at ha hb
      exact absurd (ha.trans hb.symm) hne
    | _ :: _ :: _ => simp

end Ascending

end CsdlAudit
