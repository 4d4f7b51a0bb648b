import CsdlAudit.Proofs.Document.Checked
import CsdlAudit.Proofs.Document.Outline
import CsdlAudit.Proofs.Markup.Nesting

/-!
# What the checker accepts

The checker keeps two numbers and a flag, and never the elements that are open. What it says of a
document can be said without them: each element stands within others, those that lie within an
annotation are free of demands, and the others have what they need (`Acceptable`). A document is
compliant just when it is acceptable (`tellsVerdict_check`).

The numbers follow the open elements (`Follows`): the count of open elements is their number, and
the depth of the outermost open annotation is where it stands among them. An event keeps this up
whatever is open, so what a run finds is read off the elements of the run one by one
(`Follows.findings_foldl`).
-/

namespace CsdlAudit.Document

open Markup (Placed placed openBehind?)

/-! ## Acceptable documents -/

/-- **A document has what it needs**: it can be read to its end, and its elements are closed, begin
with a proper root, and have their attributes unless they lie within an annotation. -/
structure Acceptable (reading : Markup.Reading) : Prop where
  /-- The markup has no fault. -/
  read : reading.fault = none
  /-- No element is left open. -/
  closed : openBehind? [] reading.events = some []
  /-- There is a first element, and it is a proper root. -/
  root : ∃ first, (placed [] reading.events).head? = some first ∧
    (first.tag.localName = "Edmx" ∨ first.tag.localName = "Schema")
  /-- Each element outside of annotations that has a line in the table of needed attributes has a
  readable list of attributes with all that it needs. -/
  needed : ∀ p ∈ placed [] reading.events, ¬p.Within "Annotation" →
    ∀ needed, (p.tag.localName, needed) ∈ neededAttributes →
      p.tag.attributes.fault = none ∧
        ∀ name ∈ needed, ∃ a ∈ p.tag.attributes.attributes, a.localKey = name

/-- The element is a block, and not a part of the value of an annotation. -/
def IsBlock (p : Placed) : Prop := p.tag.localName = "Schema" ∧ ¬p.Within "Annotation"

instance (p : Placed) : Decidable (IsBlock p) :=
  inferInstanceAs (Decidable (_ ∧ _))

/-- What an element lacks where it stands. -/
def wanting (p : Placed) : List Finding :=
  if p.Within "Annotation" then [] else lacking p.tag

/-! ## The checker follows the open elements -/

/-- What a tag counts as to the checker. -/
def tagOutline (tag : Markup.Tag) : Outline :=
  if tag.localName = "Annotation" then .applied else .other

/-- No annotation is open when no open element is one. -/
theorem annotatedAt_map_tagOutline {tag : Markup.Tag} {around : List Markup.Tag} :
    Outline.annotatedAt (around.map tagOutline) = none ↔
      ¬Placed.Within ⟨tag, around⟩ "Annotation" := by
  unfold Placed.Within
  induction around with
  | nil => simp [Outline.annotatedAt]
  | cons a around ih =>
    rw [List.map_cons, Outline.annotatedAt, Option.or_eq_none_iff, ih]
    by_cases ha : a.localName = "Annotation" <;> simp [tagOutline, ha]

namespace Checker

variable {c : Checker} {tag : Markup.Tag} {opens : Bool}

theorem findings_enter : (c.enter tag opens).findings =
    c.findings ++ (c.rootFindings tag ++ if c.annotatedAt = none then lacking tag else []) := by
  cases hannotated : c.annotatedAt <;> simp [enter, hannotated]

theorem rootSeen_enter : (c.enter tag opens).rootSeen = true := by
  cases hannotated : c.annotatedAt <;> simp [enter, hannotated]

/-- **What is found of elements** that are met in their order. -/
def found (c : Checker) : List Placed → List Finding
  | [] => []
  | p :: ps => c.rootFindings p.tag ++ (p :: ps).flatMap wanting

/-- Behind the first element any root will do. -/
theorem found_of_rootSeen (h : c.rootSeen = true) (ps : List Placed) :
    c.found ps = ps.flatMap wanting := by
  cases ps with
  | nil => rfl
  | cons p ps => rw [found, rootFindings, if_pos (.inl h), List.nil_append]

end Checker

/-- **The checker follows the open elements**, innermost first. -/
structure Follows (c : Checker) (outer : List Markup.Tag) : Prop where
  /-- It counts them. -/
  depth : c.depth = outer.length
  /-- It has the depth of the outermost annotation among them. -/
  annotatedAt : c.annotatedAt = Outline.annotatedAt (outer.map tagOutline)

namespace Follows

variable {c : Checker} {outer outer' : List Markup.Tag} {tag : Markup.Tag}
  {events : List Markup.Event}

theorem initial : Follows .initial [] where
  depth := rfl
  annotatedAt := rfl

theorem opening (h : Follows c outer) : Follows (c.enter tag true) (tag :: outer) where
  depth := by rw [Checker.depth_enter, h.depth, List.length_cons]
  annotatedAt := by
    rw [Checker.annotatedAt_enter, h.annotatedAt, h.depth, List.map_cons, Outline.annotatedAt,
      List.length_map]
    by_cases hannotation : tag.localName = "Annotation" <;> simp [tagOutline, hannotation]

theorem leave (h : Follows c outer) : Follows c.leave outer.tail where
  depth := by
    rw [List.length_tail, ← h.depth]
    rfl
  annotatedAt := by
    rw [List.map_tail, Outline.annotatedAt_tail, List.length_map, ← h.annotatedAt, ← h.depth]
    rfl

theorem empty (h : Follows c outer) : Follows (c.enter tag false) outer := by
  have hdepth : ∀ depth, c.annotatedAt = some depth → depth < c.depth := by
    intro depth hsome
    rw [h.annotatedAt] at hsome
    rw [h.depth, ← List.length_map tagOutline]
    exact Outline.annotatedAt_lt hsome
  rw [← Checker.leave_enter hdepth]
  exact h.opening.leave

/-- An element that the checker meets is one outside of annotations when it sees none open. -/
theorem annotatedAt_eq_none_iff (h : Follows c outer) :
    c.annotatedAt = none ↔ ¬Placed.Within ⟨tag, outer⟩ "Annotation" := by
  rw [h.annotatedAt, annotatedAt_map_tagOutline]

/-- **One event.** -/
theorem advance (h : Follows c outer) {e : Markup.Event}
    (hopen : e.openBehind? outer = some outer') : Follows (c.advance e) outer' := by
  cases e with
  | opening tag => exact Option.some.inj hopen ▸ h.opening
  | empty tag => exact Option.some.inj hopen ▸ h.empty
  | closing =>
    cases outer with
    | nil => cases hopen
    | cons tag outer => exact Option.some.inj hopen ▸ h.leave
  | text raw => exact Option.some.inj hopen ▸ h

/-- **A run of events.** -/
theorem foldl (h : Follows c outer) (hopen : openBehind? outer events = some outer') :
    Follows (events.foldl Checker.advance c) outer' := by
  induction events generalizing c outer with
  | nil => exact Option.some.inj hopen ▸ h
  | cons e events ih =>
    obtain ⟨outer₁, he, hevents⟩ := Option.bind_eq_some_iff.mp (Markup.openBehind?_cons ▸ hopen)
    exact ih (h.advance he) hevents

/-! ## What a run finds -/

/-- What is found at an element. -/
theorem findings_enter (h : Follows c outer) {opens : Bool} : (c.enter tag opens).findings =
    c.findings ++ (c.rootFindings tag ++ wanting ⟨tag, outer⟩) := by
  rw [Checker.findings_enter, wanting]
  by_cases hwithin : Placed.Within ⟨tag, outer⟩ "Annotation"
  · rw [if_pos hwithin, if_neg fun hnone => h.annotatedAt_eq_none_iff.mp hnone hwithin]
  · rw [if_neg hwithin, if_pos (h.annotatedAt_eq_none_iff.mpr hwithin)]

/-- What is found from an element on. -/
theorem findings_enter_append (h : Follows c outer) {opens : Bool} (ps : List Placed) :
    (c.enter tag opens).findings ++ (c.enter tag opens).found ps =
      c.findings ++ c.found (⟨tag, outer⟩ :: ps) := by
  rw [h.findings_enter, Checker.found_of_rootSeen Checker.rootSeen_enter, Checker.found,
    List.flatMap_cons, List.append_assoc, List.append_assoc]

/-- **What a run finds** is read off its elements. -/
theorem findings_foldl (h : Follows c outer) (events : List Markup.Event) :
    (events.foldl Checker.advance c).findings = c.findings ++ c.found (placed outer events) := by
  induction events generalizing c outer with
  | nil => exact (List.append_nil _).symm
  | cons e rest ih =>
    cases e with
    | opening tag => exact (ih h.opening).trans (h.findings_enter_append _)
    | empty tag => exact (ih h.empty).trans (h.findings_enter_append _)
    | closing => exact ih h.leave
    | text raw => exact ih h

/-- An element is counted if it is a block. -/
theorem blocks_enter (h : Follows c outer) {opens : Bool} (ps : List Placed) :
    (c.enter tag opens).blocks + ps.countP (IsBlock ·) =
      c.blocks + (⟨tag, outer⟩ :: ps : List Placed).countP (IsBlock ·) := by
  have hblock : (c.annotatedAt = none ∧ tag.localName = "Schema") ↔ IsBlock ⟨tag, outer⟩ :=
    (and_congr_left fun _ => h.annotatedAt_eq_none_iff).trans and_comm
  rw [Checker.blocks_enter, List.countP_cons, Nat.add_left_comm]
  by_cases his : IsBlock ⟨tag, outer⟩
  · rw [if_pos (hblock.mpr his), if_pos (decide_eq_true his), Nat.add_comm]
  · rw [if_neg (mt hblock.mp his), if_neg (decide_eq_true_iff.not.mpr his), Nat.add_zero,
      Nat.add_comm]

/-- **A run counts its blocks.** -/
theorem blocks_foldl (h : Follows c outer) (events : List Markup.Event) :
    (events.foldl Checker.advance c).blocks =
      c.blocks + (placed outer events).countP (IsBlock ·) := by
  induction events generalizing c outer with
  | nil => rfl
  | cons e rest ih =>
    cases e with
    | opening tag => exact (ih h.opening).trans (h.blocks_enter _)
    | empty tag => exact (ih h.empty).trans (h.blocks_enter _)
    | closing => exact ih h.leave
    | text raw => exact ih h

end Follows

/-- **A run has seen a root** when it has met an element. -/
theorem Checker.rootSeen_foldl (c : Checker) (outer : List Markup.Tag)
    (events : List Markup.Event) : (events.foldl Checker.advance c).rootSeen = true ↔
      c.rootSeen = true ∨ placed outer events ≠ [] := by
  induction events generalizing c outer with
  | nil => simp [placed]
  | cons e rest ih =>
    cases e with
    | opening tag =>
      exact (ih (c.enter tag true) (tag :: outer)).trans
        (iff_of_true (.inl rootSeen_enter) (.inr (List.cons_ne_nil _ _)))
    | empty tag =>
      exact (ih (c.enter tag false) outer).trans
        (iff_of_true (.inl rootSeen_enter) (.inr (List.cons_ne_nil _ _)))
    | closing => exact ih c.leave outer.tail
    | text raw => exact ih c outer

/-! ## The verdict -/

section Verdict

variable {reading : Markup.Reading} {outer : List Markup.Tag}

/-- Nothing is wanting just where all that is needed is there. -/
theorem wanting_eq_nil_iff {p : Placed} : wanting p = [] ↔ (¬p.Within "Annotation" →
    ∀ needed, (p.tag.localName, needed) ∈ neededAttributes →
      p.tag.attributes.fault = none ∧
        ∀ name ∈ needed, ∃ a ∈ p.tag.attributes.attributes, a.localKey = name) := by
  rw [wanting, ← lacking_eq_nil_iff]
  by_cases hwithin : p.Within "Annotation" <;> simp [hwithin]

/-- Nothing is found of elements that begin with a proper root and have what they need. -/
theorem found_initial_eq_nil_iff {ps : List Placed} (hne : ps ≠ []) :
    Checker.initial.found ps = [] ↔
      (∃ first, ps.head? = some first ∧
        (first.tag.localName = "Edmx" ∨ first.tag.localName = "Schema")) ∧
      ∀ p ∈ ps, wanting p = [] := by
  cases ps with
  | nil => exact absurd rfl hne
  | cons first ps =>
    rw [Checker.found, List.append_eq_nil_iff, List.flatMap_eq_nil_iff]
    refine and_congr_left fun _ => ?_
    simp [Checker.rootFindings, Checker.initial, or_iff_not_imp_left]

/-- Nothing is wrong where reading ends. -/
theorem endFindings_eq_nil_iff {c : Checker} {fault : Option (Markup.Fault × Nat)} :
    c.endFindings fault = [] ↔ fault = none ∧ c.depth = 0 ∧ c.rootSeen = true := by
  unfold Checker.endFindings
  cases fault with
  | none => simp
  | some fault => simp

/-- **Nothing is found in a reading just when it is acceptable**, if no element closes where none is
open. -/
theorem findings_eq_nil_iff (hopen : openBehind? [] reading.events = some outer) :
    findings reading = [] ↔ Acceptable reading := by
  have hdepth : (checked reading).depth = outer.length := (Follows.initial.foldl hopen).depth
  have hroot : (checked reading).rootSeen = true ↔ placed [] reading.events ≠ [] :=
    (Checker.rootSeen_foldl .initial [] reading.events).trans (or_iff_right Bool.false_ne_true)
  have hfound : (checked reading).findings = Checker.initial.found (placed [] reading.events) :=
    (Follows.initial.findings_foldl _).trans (List.nil_append _)
  rw [findings, List.append_eq_nil_iff, endFindings_eq_nil_iff, hfound, hdepth, hroot,
    List.length_eq_zero_iff]
  constructor
  · rintro ⟨hnothing, hread, rfl, hne⟩
    obtain ⟨hproper, hwanting⟩ := (found_initial_eq_nil_iff hne).mp hnothing
    exact ⟨hread, hopen, hproper, fun p hp => wanting_eq_nil_iff.mp (hwanting p hp)⟩
  · intro h
    obtain ⟨first, hfirst, hname⟩ := h.root
    have hne : placed [] reading.events ≠ [] := List.ne_nil_of_mem (List.mem_of_mem_head? hfirst)
    have hclosed : outer = [] := Option.some.inj (hopen.symm.trans h.closed)
    refine ⟨(found_initial_eq_nil_iff hne).mpr ⟨h.root, fun p hp => ?_⟩, h.read, hclosed, hne⟩
    exact wanting_eq_nil_iff.mpr (h.needed p hp)

end Verdict

/-- **What the verdict on a reading says.** -/
structure TellsVerdict (reading : Markup.Reading) (v : FileVerdict) : Prop where
  /-- A document is compliant when it is acceptable. -/
  compliant : v.compliant = true ↔ Acceptable reading
  /-- It is compliant when there are no errors. -/
  noErrors : v.compliant = true ↔ v.errors = []
  /-- The errors are what was found, in order. -/
  errors : v.errors = (findings reading).map Finding.message
  /-- The errors of a type are what was found of it, in the same order. -/
  byType : ∀ type, v.errorsByType.get type =
    ((findings reading).filter fun f => f.type = type).map Finding.message
  /-- The types are those of what was found. -/
  types : ∀ type, type ∈ v.errorsByType.keys ↔ ∃ f ∈ findings reading, f.type = type
  /-- Over all types the errors are the same ones. -/
  divided : v.errorsByType.values.Perm v.errors
  /-- There is a warning when the document is compliant and has no block. -/
  warned : v.warnings ≠ [] ↔
    v.compliant = true ∧ ∀ p ∈ placed [] reading.events, ¬IsBlock p
  /-- There is no other warning. -/
  warning : ∀ w ∈ v.warnings, w = noBlockWarning
  /-- At every point the checker counts the elements that are open there. -/
  depth : ∀ before after, reading.events = before ++ after →
    ∃ outer, openBehind? [] before = some outer ∧
      (before.foldl Checker.advance .initial).depth = outer.length
  /-- No element closes where it counts none. -/
  open_of_closing : ∀ before after, reading.events = before ++ .closing :: after →
    0 < (before.foldl Checker.advance .initial).depth

section

variable {reading : Markup.Reading} {outer : List Markup.Tag}

/-- Behind the beginning of a reading the checker counts the open elements. -/
theorem depth_foldl (hopen : openBehind? [] reading.events = some outer)
    {before after : List Markup.Event} (h : reading.events = before ++ after) :
    ∃ outer₁, openBehind? [] before = some outer₁ ∧ openBehind? outer₁ after = some outer ∧
      (before.foldl Checker.advance .initial).depth = outer₁.length := by
  obtain ⟨outer₁, hbefore, hafter⟩ := Markup.exists_openBehind?_of_prefix (h ▸ hopen)
  exact ⟨outer₁, hbefore, hafter, (Follows.initial.foldl hbefore).depth⟩

/-- **The verdict on a reading says what it should**, however it was read, as long as no element
closes where none is open. -/
theorem tellsVerdict_judge (hopen : openBehind? [] reading.events = some outer)
    (fileName : String) : TellsVerdict reading (judge reading fileName) where
  compliant := compliant_judge.trans (findings_eq_nil_iff hopen)
  noErrors := by rw [compliant_judge, errors_judge, List.map_eq_nil_iff]
  errors := errors_judge
  byType := by
    intro type
    rw [errorsByType_judge, Index.get_addAll, List.filter_map, List.map_map]
    simp only [Function.comp_def, Std.LawfulEqCmp.compare_eq_iff_eq, @eq_comm _ type]
    exact List.nil_append _
  types := by
    intro type
    rw [errorsByType_judge, Index.mem_keys_addAll_empty]
    simp
  divided := by
    rw [errorsByType_judge, errors_judge, ← Index.map_snd_entries]
    have hperm := (Index.perm_entries_addAll .empty
      ((findings reading).map fun f => (f.type, f.message))).map Prod.snd
    rw [List.map_append, List.map_map] at hperm
    exact hperm
  warned := by
    have hblocks : (checked reading).blocks = 0 ↔
        ∀ p ∈ placed [] reading.events, ¬IsBlock p := by
      rw [checked, Follows.initial.blocks_foldl]
      simp [Checker.initial, List.countP_eq_zero]
    rw [warnings_judge, compliant_judge, ← hblocks, ne_eq, ite_eq_right_iff]
    simp
  warning := by
    intro w hw
    rw [warnings_judge] at hw
    split at hw
    · exact List.mem_singleton.mp hw
    · cases hw
  depth := by
    intro before after h
    obtain ⟨outer₁, hbefore, -, hdepth⟩ := depth_foldl hopen h
    exact ⟨outer₁, hbefore, hdepth⟩
  open_of_closing := by
    intro before after h
    obtain ⟨outer₁, -, hafter, hdepth⟩ := depth_foldl hopen h
    rw [hdepth]
    cases outer₁ with
    | nil => cases hafter
    | cons tag outer₁ => exact Nat.succ_pos _

end

/-- **The checker accepts just the documents that have what they need**, whatever the text. Of how
a text is read it takes no more than that no element closes where none is open, so the same is said
of any reading of that kind. -/
theorem tellsVerdict_check :
    (∀ document fileName, TellsVerdict (Markup.read document) (check document fileName)) ∧
      ∀ reading outer, openBehind? [] reading.events = some outer →
        ∀ fileName, TellsVerdict reading (judge reading fileName) := by
  refine ⟨fun document fileName => ?_, fun _ _ => tellsVerdict_judge⟩
  have hnone : ([] : List Markup.Tag).map Markup.Tag.name = [] := rfl
  obtain ⟨outer, hopen⟩ := Markup.exists_openBehind?_readFrom ⟨0, false, []⟩
    (Markup.dropByteOrderMark document.toList) hnone
  exact tellsVerdict_judge hopen fileName

/-- A document with a property that has no type, and with one in an annotation. -/
def untyped : String :=
  "<Schema Namespace='N'><Property Name='P'/>" ++
    "<Annotation Term='T'><Property/></Annotation></Schema>"

/-- A reading that breaks off behind an element that is no root. -/
def brokenOff : Markup.Reading :=
  ⟨[.opening ⟨"Note", ""⟩, .empty ⟨"Property", " Name='P'"⟩], some (.unfinished .bang, 40)⟩

/-- **Two documents that are refused**: one for want of an attribute, and one for all that may be
wrong. -/
theorem tellsVerdict_refused :
    TellsVerdict (Markup.read untyped) (check untyped "a.xml") ∧
      (check untyped "a.xml").compliant = false ∧
      findings (Markup.read untyped) = [.missing "Property" (some "P") "Type"] ∧
      TellsVerdict brokenOff (judge brokenOff "b.xml") ∧
      (judge brokenOff "b.xml").errorsByType.keys = [structureType, syntaxType] := by
  obtain ⟨hcheck, hjudge⟩ := tellsVerdict_check
  exact ⟨hcheck untyped "a.xml", by decide +kernel, by decide +kernel,
    hjudge brokenOff [⟨"Note", ""⟩] rfl "b.xml", by decide +kernel⟩

end CsdlAudit.Document
