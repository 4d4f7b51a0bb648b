import Mathlib.Data.List.TakeWhile
import CsdlAudit.Text.Pieces

/-!
# What the pieces of a text tell

What follows a beginning is the rest of the text (`afterStart?_eq_some_iff`). A text is cut at the
first or at the last occurrence of a character, so the piece on the near side is free of it
(`splitFirst_eq_some`, `splitLast_eq_some_iff`), and a text without the character is not cut at all.
-/

namespace CsdlAudit.Text

/-! ## Beginnings -/

theorem dropStart?_eq_some_iff {start cs rest : List Char} :
    dropStart? start cs = some rest ↔ cs = start ++ rest := by
  induction start generalizing cs with
  | nil => simp [dropStart?]
  | cons a start ih =>
    cases cs with
    | nil => simp [dropStart?]
    | cons c cs =>
      rw [dropStart?, Option.ite_none_right_eq_some, ih, List.cons_append, List.cons.injEq,
        eq_comm]

theorem dropStart?_eq_none {start cs : List Char} (h : ∀ rest, cs ≠ start ++ rest) :
    dropStart? start cs = none :=
  Option.eq_none_iff_forall_ne_some.mpr fun rest e => h rest (dropStart?_eq_some_iff.mp e)

/-- **What follows a beginning is the rest of the text.** -/
theorem afterStart?_eq_some_iff {start s rest : String} :
    afterStart? start s = some rest ↔ s = start ++ rest := by
  rw [afterStart?, Option.map_eq_some_iff]
  constructor
  · rintro ⟨tail, htail, rfl⟩
    refine String.toList_injective ?_
    rw [String.toList_append, String.toList_ofList]
    exact dropStart?_eq_some_iff.mp htail
  · rintro rfl
    exact ⟨rest.toList, dropStart?_eq_some_iff.mpr (String.toList_append ..), String.ofList_toList⟩

theorem beginsWith_iff {start s : String} : beginsWith start s = true ↔ ∃ rest, s = start ++ rest := by
  have hsome : beginsWith start s = (afterStart? start s).isSome := by
    rw [beginsWith, afterStart?, Option.isSome_map]
  simp only [hsome, Option.isSome_iff_exists, afterStart?_eq_some_iff]

/-! ## Dots -/

theorem toList_dotted (s t : String) : (s ++ "." ++ t).toList = s.toList ++ '.' :: t.toList := by
  rw [String.toList_append, String.toList_append, List.append_assoc]
  rfl

/-- In front of the same text, other texts stay different. -/
theorem dotted_inj {s t rest : String} : s ++ "." ++ rest = t ++ "." ++ rest ↔ s = t := by
  refine ⟨fun h => String.toList_injective ?_, fun h => h ▸ rfl⟩
  have hlist := congrArg String.toList h
  rw [toList_dotted, toList_dotted] at hlist
  exact List.append_cancel_right hlist

/-! ## Cuts -/

/-- The items before the first `c`. -/
theorem takeWhile_ne_append_cons {α : Type} [DecidableEq α] {c : α} {xs : List α} (h : c ∉ xs)
    (ys : List α) : (xs ++ c :: ys).takeWhile (· != c) = xs := by
  have hfront : ∀ x ∈ xs, (x != c) = true := fun x hx => bne_iff_ne.mpr fun e => h (e ▸ hx)
  rw [List.takeWhile_append_of_pos hfront]
  simp

/-- What stands in front of the first `c` is determined. -/
theorem front_eq_of_append_cons {α : Type} [DecidableEq α] {c : α} {xs xs' ys ys' : List α}
    (h : c ∉ xs) (h' : c ∉ xs') (e : xs ++ c :: ys = xs' ++ c :: ys') : xs = xs' := by
  rw [← takeWhile_ne_append_cons h ys, e, takeWhile_ne_append_cons h' ys']

/-- The items from the first `c` on. -/
theorem dropWhile_ne_append_cons {α : Type} [DecidableEq α] {c : α} {xs : List α} (h : c ∉ xs)
    (ys : List α) : (xs ++ c :: ys).dropWhile (· != c) = c :: ys := by
  have hfront : ∀ x ∈ xs, (x != c) = true := fun x hx => bne_iff_ne.mpr fun e => h (e ▸ hx)
  rw [List.dropWhile_append_of_pos hfront]
  simp

theorem takeWhile_ne_eq_self {α : Type} [DecidableEq α] {c : α} {xs : List α} (h : c ∉ xs) :
    xs.takeWhile (· != c) = xs :=
  List.takeWhile_eq_self_iff.mpr fun _ hx => bne_iff_ne.mpr fun e => h (e ▸ hx)

theorem dropWhile_ne_eq_nil {α : Type} [DecidableEq α] {c : α} {xs : List α} (h : c ∉ xs) :
    xs.dropWhile (· != c) = [] :=
  List.dropWhile_eq_nil_iff.mpr fun _ hx => bne_iff_ne.mpr fun e => h (e ▸ hx)

variable {c : Char} {s front last : String}

theorem splitFirst_eq_none (h : c ∉ s.toList) : splitFirst c s = none := by
  rw [splitFirst, dropWhile_ne_eq_nil h]

/-- **The first cut.** -/
theorem splitFirst_eq_some (hs : s.toList = front.toList ++ c :: last.toList)
    (h : c ∉ front.toList) : splitFirst c s = some (front, last) := by
  rw [splitFirst, hs, dropWhile_ne_append_cons h, takeWhile_ne_append_cons h]
  simp only [String.ofList_toList]

theorem splitLast_eq_none (h : c ∉ s.toList) : splitLast c s = none := by
  rw [splitLast, dropWhile_ne_eq_nil fun hc => h (List.mem_reverse.mp hc)]

/-- The last cut is the first one from the end. -/
theorem splitLast_eq_some (hs : s.toList = front.toList ++ c :: last.toList)
    (h : c ∉ last.toList) : splitLast c s = some (front, last) := by
  have hback : s.toList.reverse = last.toList.reverse ++ c :: front.toList.reverse := by
    rw [hs, List.reverse_append, List.reverse_cons, List.append_assoc, List.singleton_append]
  have hlast : c ∉ last.toList.reverse := fun hc => h (List.mem_reverse.mp hc)
  simp only [splitLast, hback, dropWhile_ne_append_cons hlast, takeWhile_ne_append_cons hlast,
    List.reverse_reverse, String.ofList_toList]

/-- **The last cut** leaves no `c` behind it. -/
theorem splitLast_eq_some_iff : splitLast c s = some (front, last) ↔
    s.toList = front.toList ++ c :: last.toList ∧ c ∉ last.toList := by
  refine ⟨fun h => ?_, fun ⟨hs, hlast⟩ => splitLast_eq_some hs hlast⟩
  by_cases hc : c ∈ s.toList
  · -- the pieces at the last occurrence are those that were found
    obtain ⟨after, before, hback, hafter⟩ := List.eq_append_cons_of_mem (List.mem_reverse.mpr hc)
    have hs : s.toList =
        (String.ofList before.reverse).toList ++ c :: (String.ofList after.reverse).toList := by
      rw [String.toList_ofList, String.toList_ofList, ← List.reverse_reverse s.toList, hback]
      simp
    have hlast : c ∉ (String.ofList after.reverse).toList := by
      rw [String.toList_ofList]
      exact fun hc => hafter (List.mem_reverse.mp hc)
    rw [splitLast_eq_some hs hlast] at h
    obtain ⟨rfl, rfl⟩ := Prod.mk.inj (Option.some.inj h)
    exact ⟨hs, hlast⟩
  · rw [splitLast_eq_none hc] at h
    exact absurd h (Option.some_ne_none _).symm

/-- **A dotted text tells both sides of its last dot.** -/
theorem dotted_eq_dotted_iff {s t a b : String} (ha : '.' ∉ a.toList) (hb : '.' ∉ b.toList) :
    s ++ "." ++ a = t ++ "." ++ b ↔ s = t ∧ a = b := by
  constructor
  · intro h
    have hcut := splitLast_eq_some (toList_dotted s a) ha
    rw [h, splitLast_eq_some (toList_dotted t b) hb] at hcut
    obtain ⟨hst, hab⟩ := Prod.mk.inj (Option.some.inj hcut)
    exact ⟨hst.symm, hab.symm⟩
  · rintro ⟨rfl, rfl⟩
    rfl

/-! ## Joined texts -/

/-- Between two stretches that are joined stands a separator. -/
theorem join_append (separator : String) {ss ts : List String} (hs : ss ≠ []) (ht : ts ≠ []) :
    join separator (ss ++ ts) = join separator ss ++ separator ++ join separator ts := by
  induction ss with
  | nil => exact absurd rfl hs
  | cons s ss ih =>
    obtain ⟨t, ts, rfl⟩ := List.exists_cons_of_ne_nil ht
    cases ss with
    | nil => rfl
    | cons s' ss =>
      show s ++ separator ++ join separator (s' :: ss ++ t :: ts) =
        s ++ separator ++ join separator (s' :: ss) ++ separator ++ join separator (t :: ts)
      rw [ih (List.cons_ne_nil _ _)]
      simp only [String.append_assoc]

theorem toList_join (separator : String) (ss : List String) :
    (join separator ss).toList = separator.toList.intercalate (ss.map String.toList) := by
  induction ss with
  | nil => simp [join]
  | cons s ss ih =>
    cases ss with
    | nil => simp [join]
    | cons s' ss =>
      rw [List.map_cons, List.map_cons, List.intercalate_cons_cons, ← List.map_cons, ← ih,
        ← String.toList_append, ← String.toList_append]
      rfl

/-- **Joined texts are told by their pieces** if none of them has the separator. -/
theorem splitAll_join {separator : String} (hseparator : separator.toList = [c]) {ss : List String}
    (hss : ss ≠ []) (h : ∀ s ∈ ss, c ∉ s.toList) : splitAll c (join separator ss) = ss := by
  rw [splitAll, toList_join, hseparator, List.splitOn_intercalate c _ (by simpa using hss)]
  · rw [List.map_map]
    simp only [Function.comp_def, String.ofList_toList, List.map_id']
  · intro cs hcs
    obtain ⟨s, hs, rfl⟩ := List.mem_map.mp hcs
    exact h s hs

/-! ## Endings -/

/-- The last piece of a text holds all of an ending that has no separator. -/
theorem splitOn_append_ending {c : Char} {ys : List Char} (h : c ∉ ys) (xs : List Char) :
    ∃ front last, (xs ++ ys).splitOn c = front ++ [last ++ ys] := by
  induction xs with
  | nil => exact ⟨[], [], List.splitOn_eq_singleton h⟩
  | cons x xs ih =>
    obtain ⟨front, last, ih⟩ := ih
    rw [List.cons_append, List.splitOn_cons_eq_if_modifyHead, ih]
    by_cases hx : x = c
    · exact ⟨[] :: front, last, by simp [hx]⟩
    · cases front with
      | nil => exact ⟨[], x :: last, by simp [hx]⟩
      | cons piece front => exact ⟨(x :: piece) :: front, last, by simp [hx]⟩

end CsdlAudit.Text
