import Mathlib.Data.List.TakeWhile
import CsdlAudit.Text.Pieces

/-!
# What trimming leaves

A text has one core: blanks stand around it, and neither end of it is blank. `trim` finds the core
(`trim_eq_iff`), so blanks in front of a text and behind it make no difference (`trim_surrounded`).
-/

namespace CsdlAudit.Text

/-- Every character of the text is blank. -/
def AllBlank (s : String) : Prop := ∀ c ∈ s.toList, isBlank c = true

instance (s : String) : Decidable (AllBlank s) :=
  inferInstanceAs (Decidable (∀ c ∈ s.toList, isBlank c = true))

theorem AllBlank.append {s t : String} (hs : AllBlank s) (ht : AllBlank t) : AllBlank (s ++ t) := by
  intro c hc
  rw [String.toList_append] at hc
  exact (List.mem_append.mp hc).elim (hs c) (ht c)

/-- **The core of a text**: what is left of it without the blanks at both ends. -/
structure IsCore (s core : String) : Prop where
  /-- Only blanks stand around it. -/
  around : ∃ front back, AllBlank front ∧ AllBlank back ∧ s = front ++ core ++ back
  /-- It does not begin with a blank. -/
  first : ∀ c, core.toList.head? = some c → isBlank c = false
  /-- It does not end with a blank. -/
  last : ∀ c, core.toList.getLast? = some c → isBlank c = false

/-- What is dropped at the beginning ends where something else starts. -/
theorem dropWhile_append_eq {α : Type} {p : α → Bool} {front rest : List α}
    (hfront : ∀ x ∈ front, p x = true) (hrest : ∀ x, rest.head? = some x → p x = false) :
    (front ++ rest).dropWhile p = rest := by
  rw [List.dropWhile_append_of_pos hfront]
  cases rest with
  | nil => rfl
  | cons x rest => rw [List.dropWhile_cons, hrest x rfl, if_neg Bool.false_ne_true]

theorem isBlank_of_head?_dropWhile {cs : List Char} {c : Char}
    (h : (cs.dropWhile isBlank).head? = some c) : isBlank c = false := by
  have hnot := List.head?_dropWhile_not isBlank cs
  rw [h] at hnot
  simpa using hnot

/-- Trimming leaves a core. -/
theorem isCore_trim (s : String) : IsCore s (trim s) := by
  let tail := s.toList.dropWhile isBlank
  have hcore : (trim s).toList = (tail.reverse.dropWhile isBlank).reverse := String.toList_ofList
  have htail : tail = (trim s).toList ++ (tail.reverse.takeWhile isBlank).reverse := by
    rw [hcore, ← List.reverse_append, List.takeWhile_append_dropWhile, List.reverse_reverse]
  refine ⟨⟨String.ofList (s.toList.takeWhile isBlank),
    String.ofList (tail.reverse.takeWhile isBlank).reverse, ?_, ?_, ?_⟩, ?_, ?_⟩
  · intro c hc
    rw [String.toList_ofList] at hc
    exact List.mem_takeWhile_imp hc
  · intro c hc
    rw [String.toList_ofList, List.mem_reverse] at hc
    exact List.mem_takeWhile_imp hc
  · refine String.toList_injective ?_
    rw [String.toList_append, String.toList_append, String.toList_ofList, String.toList_ofList,
      List.append_assoc, ← htail]
    exact List.takeWhile_append_dropWhile.symm
  · -- the first character of the core is the first one of what follows the blanks
    intro c hc
    refine @isBlank_of_head?_dropWhile s.toList c ?_
    show tail.head? = some c
    rw [htail, List.head?_append, hc]
    rfl
  · intro c hc
    refine @isBlank_of_head?_dropWhile tail.reverse c ?_
    rw [← List.getLast?_reverse, ← hcore]
    exact hc

/-- **Trimming finds the core.** -/
theorem trim_eq_iff {s core : String} : trim s = core ↔ IsCore s core := by
  constructor
  · rintro rfl
    exact isCore_trim s
  · rintro ⟨⟨front, back, hfront, hback, rfl⟩, hfirst, hlast⟩
    refine String.toList_injective ?_
    have hdrop : ((front ++ core ++ back).toList.dropWhile isBlank).reverse.dropWhile isBlank =
        core.toList.reverse := by
      rw [String.toList_append, String.toList_append, List.append_assoc]
      cases hcore : core.toList with
      | nil =>
        have hall : ∀ c ∈ front.toList ++ ([] ++ back.toList), isBlank c = true := fun c hc =>
          (List.mem_append.mp hc).elim (hfront c) (hback c)
        rw [List.dropWhile_eq_nil_iff.mpr hall]
        rfl
      | cons c cs =>
        rw [hcore] at hfirst hlast
        have hrest : ∀ d, (c :: cs ++ back.toList).head? = some d → isBlank d = false :=
          fun d hd => hfirst d hd
        rw [dropWhile_append_eq hfront hrest, List.reverse_append]
        refine dropWhile_append_eq (fun d hd => hback d (List.mem_reverse.mp hd)) fun d hd => ?_
        rw [List.head?_reverse] at hd
        exact hlast d hd
    rw [trim, dropEndWhile, hdrop, List.reverse_reverse, String.toList_ofList]

/-- **Blanks around a text make no difference.** -/
theorem trim_surrounded {front back : String} (hfront : AllBlank front) (hback : AllBlank back)
    (s : String) : trim (front ++ s ++ back) = trim s := by
  obtain ⟨⟨before, after, hbefore, hafter, hs⟩, hfirst, hlast⟩ := isCore_trim s
  refine trim_eq_iff.mpr ⟨⟨front ++ before, after ++ back, hfront.append hbefore,
    hafter.append hback, ?_⟩, hfirst, hlast⟩
  calc front ++ s ++ back = front ++ (before ++ trim s ++ after) ++ back := by rw [← hs]
    _ = front ++ before ++ trim s ++ (after ++ back) := by simp only [String.append_assoc]

end CsdlAudit.Text
