import CsdlAudit.Index

/-!
# Keys

Elements are filed under their namespace and name, annotations under the element's namespace, its
path and the term. Keys are ordered by their parts, first to last.
-/

namespace CsdlAudit

/-- **What identifies an element.** -/
structure ElementKey where
  /-- The namespace. -/
  namespaceName : String
  /-- The name, or the signature of an operation. -/
  name : String
deriving DecidableEq, Repr, Inhabited

namespace ElementKey

/-- The qualified name. -/
def display (k : ElementKey) : String := k.namespaceName ++ "." ++ k.name

instance : Ord ElementKey where
  compare := compareLex (compareOn namespaceName) (compareOn name)

instance : Std.TransOrd ElementKey :=
  inferInstanceAs (Std.TransCmp (compareLex (compareOn namespaceName) (compareOn name)))

instance : Std.LawfulEqOrd ElementKey where
  eq_of_compare {a b} h := by
    have h : (compareOn namespaceName a b).then (compareOn name a b) = .eq := h
    rw [Ordering.then_eq_eq] at h
    have h1 : a.namespaceName = b.namespaceName := Std.LawfulEqCmp.compare_eq_iff_eq.mp h.1
    have h2 : a.name = b.name := Std.LawfulEqCmp.compare_eq_iff_eq.mp h.2
    cases a
    cases b
    simp_all

end ElementKey

/-- **What identifies an annotated place and a term on it.** -/
structure AnnotationKey where
  /-- The namespace. -/
  namespaceName : String
  /-- The name of the element, with the path of a member behind it. -/
  element : String
  /-- The term with its qualifier. -/
  term : String
deriving DecidableEq, Repr, Inhabited

namespace AnnotationKey

instance : Ord AnnotationKey where
  compare := compareLex (compareOn namespaceName) (compareLex (compareOn element) (compareOn term))

instance : Std.TransOrd AnnotationKey :=
  inferInstanceAs (Std.TransCmp
    (compareLex (compareOn namespaceName) (compareLex (compareOn element) (compareOn term))))

instance : Std.LawfulEqOrd AnnotationKey where
  eq_of_compare {a b} h := by
    have h : (compareOn namespaceName a b).then
        ((compareOn element a b).then (compareOn term a b)) = .eq := h
    rw [Ordering.then_eq_eq, Ordering.then_eq_eq] at h
    have h1 : a.namespaceName = b.namespaceName := Std.LawfulEqCmp.compare_eq_iff_eq.mp h.1
    have h2 : a.element = b.element := Std.LawfulEqCmp.compare_eq_iff_eq.mp h.2.1
    have h3 : a.term = b.term := Std.LawfulEqCmp.compare_eq_iff_eq.mp h.2.2
    cases a
    cases b
    simp_all

end AnnotationKey

end CsdlAudit
