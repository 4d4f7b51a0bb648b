import CsdlAudit.Document.Check
import CsdlAudit.Proofs.Index

/-!
# What a verdict says of the checker's run

A document is compliant just when nothing was found (`compliant_judge`). What is found is never
taken back, so then nothing was found behind any of its events (`Checker.findings_of_foldl`), and no
element outside of annotations lacked anything (`Checker.lacking_eq_nil`).
-/

namespace CsdlAudit.Document

/-! ## The verdict -/

section Judge

theorem compliant_foldl_addError (found : List Finding) (v : FileVerdict) :
    (found.foldl (fun v f => v.addError f.type f.message) v).compliant = true ↔
      v.compliant = true ∧ found = [] := by
  induction found generalizing v with
  | nil => exact (and_iff_left rfl).symm
  | cons f found ih =>
    rw [List.foldl_cons, ih]
    exact iff_of_false (fun h => Bool.false_ne_true h.1) fun h => List.cons_ne_nil f found h.2

theorem warnings_foldl_addError (found : List Finding) (v : FileVerdict) :
    (found.foldl (fun v f => v.addError f.type f.message) v).warnings = v.warnings := by
  induction found generalizing v with
  | nil => rfl
  | cons f found ih => exact ih _

theorem errors_foldl_addError (found : List Finding) (v : FileVerdict) :
    (found.foldl (fun v f => v.addError f.type f.message) v).errors =
      v.errors ++ found.map Finding.message := by
  induction found generalizing v with
  | nil => exact (List.append_nil _).symm
  | cons f found ih => exact (ih _).trans (List.append_assoc _ _ _)

theorem errorsByType_foldl_addError (found : List Finding) (v : FileVerdict) :
    (found.foldl (fun v f => v.addError f.type f.message) v).errorsByType =
      v.errorsByType.addAll (found.map fun f => (f.type, f.message)) := by
  induction found generalizing v with
  | nil => rfl
  | cons f found ih => exact ih _

variable {reading : Markup.Reading} {fileName : String}

/-- The errors are what was found, in words. -/
theorem errors_judge :
    (judge reading fileName).errors = (findings reading).map Finding.message := by
  have hfold := errors_foldl_addError (findings reading) (.clean fileName)
  dsimp only [judge]
  split
  · exact hfold
  · exact hfold

/-- The errors by type are what was found, each under its type. -/
theorem errorsByType_judge : (judge reading fileName).errorsByType =
    Index.empty.addAll ((findings reading).map fun f => (f.type, f.message)) := by
  have hfold := errorsByType_foldl_addError (findings reading) (.clean fileName)
  dsimp only [judge]
  split
  · exact hfold
  · exact hfold

/-- There is one warning or none. -/
theorem warnings_judge : (judge reading fileName).warnings =
    if findings reading = [] ∧ (checked reading).blocks = 0 then [noBlockWarning] else [] := by
  have hfold := warnings_foldl_addError (findings reading) (.clean fileName)
  dsimp only [judge]
  split
  · exact congrArg (· ++ [noBlockWarning]) hfold
  · exact hfold

/-- **A document is compliant when nothing is wrong with it.** -/
theorem compliant_judge :
    (judge reading fileName).compliant = true ↔ findings reading = [] := by
  have hfold := compliant_foldl_addError (findings reading) (.clean fileName)
  dsimp only [judge]
  split
  · exact hfold.trans (and_iff_right rfl)
  · exact hfold.trans (and_iff_right rfl)

/-- **The warning stands with a document** that has nothing wrong and no block. -/
theorem mem_warnings_judge : noBlockWarning ∈ (judge reading fileName).warnings ↔
    findings reading = [] ∧ (checked reading).blocks = 0 := by
  rw [warnings_judge]
  split
  · next h => exact iff_of_true (List.mem_singleton.mpr rfl) h
  · next h => exact iff_of_false List.not_mem_nil h

end Judge

/-! ## The run -/

namespace Checker

variable {c : Checker} {tag : Markup.Tag} {opens : Bool}

/-- An event adds to what was found. -/
theorem findings_advance (c : Checker) (e : Markup.Event) :
    ∃ new, (c.advance e).findings = c.findings ++ new := by
  have henter : ∀ tag opens, ∃ new, (c.enter tag opens).findings = c.findings ++ new := by
    intro tag opens
    cases hannotated : c.annotatedAt with
    | none => exact ⟨c.rootFindings tag ++ lacking tag, by simp [enter, hannotated]⟩
    | some depth => exact ⟨c.rootFindings tag, by simp [enter, hannotated]⟩
  cases e with
  | opening tag => exact henter tag true
  | empty tag => exact henter tag false
  | closing => exact ⟨[], (List.append_nil _).symm⟩
  | text raw => exact ⟨[], (List.append_nil _).symm⟩

theorem findings_of_foldl {events : List Markup.Event}
    (h : (events.foldl advance c).findings = []) : c.findings = [] := by
  induction events generalizing c with
  | nil => exact h
  | cons e rest ih =>
    obtain ⟨new, hnew⟩ := findings_advance c e
    exact (List.append_eq_nil_iff.mp (hnew.symm.trans (ih h))).1

theorem lacking_eq_nil (hfound : (c.enter tag opens).findings = [])
    (houtside : c.annotatedAt = none) : lacking tag = [] := by
  rw [enter, houtside] at hfound
  exact (List.append_eq_nil_iff.mp hfound).2

theorem depth_enter : (c.enter tag true).depth = c.depth + 1 := by
  cases hannotated : c.annotatedAt <;> simp [enter, hannotated]

/-- An annotation that is open stays the outermost one. -/
theorem annotatedAt_enter : (c.enter tag true).annotatedAt =
    c.annotatedAt.or (if tag.localName = "Annotation" then some c.depth else none) := by
  cases hannotated : c.annotatedAt <;> simp [enter, hannotated]

/-- Only blocks outside of annotations are counted. -/
theorem blocks_enter : (c.enter tag opens).blocks =
    if c.annotatedAt = none ∧ tag.localName = "Schema" then c.blocks + 1 else c.blocks := by
  cases hannotated : c.annotatedAt <;> simp [enter, hannotated]

/-- **An element without content counts as one that opens and closes**, where the open annotation
is less deep than what it would close. -/
theorem leave_enter (hdepth : ∀ depth, c.annotatedAt = some depth → depth < c.depth) :
    (c.enter tag true).leave = c.enter tag false := by
  cases hannotated : c.annotatedAt with
  | none =>
    simp [enter, leave, hannotated]
  | some depth =>
    have hne : depth ≠ c.depth := Nat.ne_of_lt (hdepth depth hannotated)
    simp [enter, leave, hannotated, hne]

end Checker

end CsdlAudit.Document
