import CsdlAudit.Proofs.Document.Streaming
import CsdlAudit.Proofs.Markup.Stretch

/-!
# What stands in front

A document is read from its beginning, but of what stands in front of a place only two things matter
to the rest: the spot of the markup that it leads to, and where it takes the reader (`Reaches`).
Elements that are written there take the reader on as their forest says (`Reaches.append`). And two
fronts that lead to the same place are as good as each other: whatever follows, the documents
declare the same blocks (`Reaches.readBlocks_congr`).
-/

namespace CsdlAudit.Document

open Markup (Leads Spot)

/-- **What stands in front leads the reader somewhere**: to a spot of the markup, with so much of
the document read. -/
def Reaches (front : List Char) (p : Spot) (r : BlockReader) : Prop :=
  ∃ events, Leads ⟨false, []⟩ (Markup.dropByteOrderMark front) events p ∧
    BlockReader.initial.run events = .ok r

namespace BlockReader

/-- The reader goes on behind the events that it could take. -/
theorem run_append {r r' : BlockReader} {events : List Markup.Event} (h : r.run events = .ok r')
    (more : List Markup.Event) : r.run (events ++ more) = r'.run more := by
  fun_induction run r events with
  | case1 r =>
    cases h
    rfl
  | case2 r e rest r₁ hadvance ih => rw [List.cons_append, run_cons hadvance, ih h]
  | case3 r e rest error hadvance => cases h

end BlockReader

theorem dropByteOrderMark_append {front : List Char} (h : front ≠ []) (back : List Char) :
    Markup.dropByteOrderMark (front ++ back) = Markup.dropByteOrderMark front ++ back := by
  obtain ⟨c, cs, rfl⟩ := List.exists_cons_of_ne_nil h
  rw [List.cons_append, Markup.dropByteOrderMark, Markup.dropByteOrderMark]
  split <;> rfl

namespace Reaches

variable {front stretch : List Char} {p q : Spot} {r : BlockReader}
  {events : List Markup.Event} {f : Forest}

/-- **A stretch that writes a forest** takes the reader where the forest says. -/
theorem append (h : Reaches front p r) (hfront : front ≠ []) (hleads : Leads p stretch events q)
    (hspells : Spells f events) (hcomplete : f.Complete)
    (hplain : Outline.annotatedAt r.outlines = none) :
    Reaches (front ++ stretch) q (r.after f) := by
  obtain ⟨before, hbefore, hrun⟩ := h
  have houtside := (BlockReader.takes_of_spells hspells).2 hcomplete r hplain []
  rw [List.append_nil] at houtside
  refine ⟨before ++ events, ?_, ?_⟩
  · rw [dropByteOrderMark_append hfront]
    exact hbefore.trans hleads
  · rw [BlockReader.run_append hrun, houtside]
    rfl

/-- **What begins with a tag** takes the reader on from the `<` behind the front. -/
theorem append_tag {front markup : String} {opened : List String}
    (h : Reaches (front.toList ++ ['<']) ⟨true, opened⟩ r)
    (hmarkup : markup.toList = '<' :: stretch) (hleads : Leads ⟨true, opened⟩ stretch events q)
    (hspells : Spells f events) (hcomplete : f.Complete)
    (hplain : Outline.annotatedAt r.outlines = none) :
    Reaches (front ++ markup).toList q (r.after f) := by
  have hfront : front.toList ++ ['<'] ≠ [] :=
    List.append_ne_nil_of_right_ne_nil _ (List.cons_ne_nil _ _)
  have happend := h.append hfront hleads hspells hcomplete hplain
  rwa [List.append_assoc, List.singleton_append, ← hmarkup, ← String.toList_append] at happend

/-- Readings that go on alike from the same place declare the same blocks. -/
theorem blocksOf_behind_congr {events' : List Markup.Event} {reading reading' : Markup.Reading}
    (halike : reading.Alike reading') (hrun : BlockReader.initial.run events = .ok r)
    (hrun' : BlockReader.initial.run events' = .ok r) :
    blocksOf (reading.behind events) = blocksOf (reading'.behind events') := by
  have hfault := halike.fault
  rw [blocksOf, blocksOf, Markup.Reading.behind, Markup.Reading.behind,
    BlockReader.run_append hrun, BlockReader.run_append hrun', halike.events]
  cases r.run reading'.events with
  | error error => rfl
  | ok r' =>
    cases hf : reading.fault <;> cases hf' : reading'.fault <;> simp_all

/-- **What was read does not matter to the rest**, but for where it leads. -/
theorem readBlocks_congr {d d' : String} (h : Reaches d.toList p r) (hd : d.toList ≠ [])
    (h' : Reaches d'.toList p r) (hd' : d'.toList ≠ []) (back : String) :
    readBlocks (d ++ back) = readBlocks (d' ++ back) := by
  obtain ⟨events, hleads, hrun⟩ := h
  obtain ⟨events', hleads', hrun'⟩ := h'
  obtain ⟨offset, hread⟩ := hleads 0
  obtain ⟨offset', hread'⟩ := hleads' 0
  have hdocument : Markup.read (d ++ back) =
      (Markup.readFrom (p.cursor offset) back.toList).behind events := by
    rw [Markup.read, String.toList_append, dropByteOrderMark_append hd]
    exact hread back.toList
  have hdocument' : Markup.read (d' ++ back) =
      (Markup.readFrom (p.cursor offset') back.toList).behind events' := by
    rw [Markup.read, String.toList_append, dropByteOrderMark_append hd']
    exact hread' back.toList
  rw [readBlocks, readBlocks, hdocument, hdocument']
  exact blocksOf_behind_congr (Markup.readFrom_alike _ _ offset') hrun hrun'

end Reaches

end CsdlAudit.Document
