/-!
# Strictly ascending lists

A finite set is kept as the one list of its members in strictly ascending order, so two sets with
the same members are the same list. `Ascending.ofList` builds that list; `Ascending.mem_ofList`
says that it has the members of its argument and `Ascending.pairwise_ofList` that it ascends.
`Ascending.sort` puts a list in order without dropping repeats.
-/

namespace CsdlAudit.Ascending

variable {α : Type} [Ord α]

/-- **The set with one more member**: `a` goes before the first larger member, and a member that
is there already is not repeated. -/
def insert (a : α) : List α → List α
  | [] => [a]
  | b :: rest =>
    match compare a b with
    | .lt => a :: b :: rest
    | .eq => b :: rest
    | .gt => b :: insert a rest

/-- **The set of the members of a list**, in ascending order. -/
def ofList (xs : List α) : List α :=
  xs.foldr insert []

/-- **The list with one more member**: `a` goes before the first member that is not smaller. -/
def place (a : α) : List α → List α
  | [] => [a]
  | b :: rest =>
    match compare a b with
    | .gt => b :: place a rest
    | _ => a :: b :: rest

/-- **A list in ascending order**, each member as often as before. -/
def sort (xs : List α) : List α :=
  xs.foldr place []

variable [Std.LawfulEqOrd α]

@[simp] theorem mem_insert {a x : α} {s : List α} : x ∈ insert a s ↔ x = a ∨ x ∈ s := by
  induction s with
  | nil => simp [insert]
  | cons b rest ih =>
    unfold insert
    split
    · simp
    · rename_i h
      have := Std.LawfulEqCmp.compare_eq_iff_eq.mp h
      subst this
      simp
    · simp [ih, or_left_comm]

@[simp] theorem mem_ofList {x : α} {xs : List α} : x ∈ ofList xs ↔ x ∈ xs := by
  induction xs with
  | nil => simp [ofList]
  | cons a rest ih =>
    have : ofList (a :: rest) = insert a (ofList rest) := rfl
    simp [this, ih]

variable [Std.TransOrd α]

theorem pairwise_insert {a : α} {s : List α} (h : s.Pairwise (compare · · = .lt)) :
    (insert a s).Pairwise (compare · · = .lt) := by
  induction s with
  | nil => simp [insert]
  | cons b rest ih =>
    unfold insert
    split
    · rename_i hab
      refine List.pairwise_cons.mpr ⟨?_, h⟩
      intro x hx
      rcases List.mem_cons.mp hx with rfl | hx
      · exact hab
      · exact Std.TransCmp.lt_trans hab (List.rel_of_pairwise_cons h hx)
    · exact h
    · rename_i hab
      refine List.pairwise_cons.mpr ⟨?_, ih (List.Pairwise.of_cons h)⟩
      intro x hx
      rcases mem_insert.mp hx with rfl | hx
      · exact Std.OrientedCmp.gt_iff_lt.mp hab
      · exact List.rel_of_pairwise_cons h hx

theorem pairwise_ofList (xs : List α) : (ofList xs).Pairwise (compare · · = .lt) := by
  induction xs with
  | nil => exact List.Pairwise.nil
  | cons a rest ih => exact pairwise_insert ih

end CsdlAudit.Ascending
