import Mathlib.Data.String.Basic
import CsdlAudit.Graph.Build

/-!
# Which element is suggested

Of the elements that an id fits, the one with the highest score is suggested, and of several with
that score the one with the smallest id. There is only one such element, so the suggestion does not
depend on the order of the nodes, nor on anything of a node but its id and whether it is a part
(`Graph.suggestion?_eq_of_mem_iff`).
-/

namespace CsdlAudit

/-- **A suggestion is at least as good as another**: its score is higher, or the scores are equal
and its id does not stand behind the other. -/
def Outranks (a b : String × Int) : Prop := b.2 < a.2 ∨ b.2 = a.2 ∧ a.1 ≤ b.1

/-- The best suggestion of a list. -/
structure IsBest (a : String × Int) (l : List (String × Int)) : Prop where
  /-- It is one of them. -/
  mem : a ∈ l
  /-- It is at least as good as each. -/
  outranks : ∀ b ∈ l, Outranks a b

namespace Outranks

variable {a b c : String × Int}

theorem refl (a : String × Int) : Outranks a a := Or.inr ⟨rfl, le_refl _⟩

theorem trans (hab : Outranks a b) (hbc : Outranks b c) : Outranks a c := by
  rcases hab with hab | ⟨hab, hle⟩
  · rcases hbc with hbc | ⟨hbc, -⟩
    · exact Or.inl (hbc.trans hab)
    · exact Or.inl (hbc ▸ hab)
  · rcases hbc with hbc | ⟨hbc, hle'⟩
    · exact Or.inl (hab ▸ hbc)
    · exact Or.inr ⟨hbc.trans hab, hle.trans hle'⟩

theorem antisymm (hab : Outranks a b) (hba : Outranks b a) : a = b := by
  rcases hab with hab | ⟨hab, hle⟩
  · rcases hba with hba | ⟨hba, -⟩
    · exact absurd hab hba.not_gt
    · exact absurd hba hab.ne'
  · rcases hba with hba | ⟨-, hle'⟩
    · exact absurd hab hba.ne'
    · exact Prod.ext (le_antisymm hle hle') hab.symm

/-- The better of two is one of them and outranks both. -/
theorem betterSuggestion (a b : String × Int) :
    (CsdlAudit.betterSuggestion a b = a ∨ CsdlAudit.betterSuggestion a b = b) ∧
      Outranks (CsdlAudit.betterSuggestion a b) a ∧
      Outranks (CsdlAudit.betterSuggestion a b) b := by
  unfold CsdlAudit.betterSuggestion
  split
  · next h => exact ⟨Or.inr rfl, h.imp id fun h => ⟨h.1, h.2.le⟩, refl b⟩
  · next h =>
    obtain ⟨hscore, hid⟩ := not_or.mp h
    refine ⟨Or.inl rfl, refl a, ?_⟩
    rcases (not_lt.mp hscore).lt_or_eq with hlt | heq
    · exact Or.inl hlt
    · exact Or.inr ⟨heq, not_lt.mp fun hlt => hid ⟨heq.symm, hlt⟩⟩

end Outranks

namespace IsBest

variable {a b : String × Int} {l l' : List (String × Int)}

/-- **There is only one best suggestion.** -/
theorem unique (ha : IsBest a l) (hb : IsBest b l) : a = b :=
  (ha.outranks b hb.mem).antisymm (hb.outranks a ha.mem)

/-- The order of the suggestions does not matter. -/
theorem congr (h : IsBest a l) (hmem : ∀ x, x ∈ l ↔ x ∈ l') : IsBest a l' :=
  ⟨(hmem a).mp h.mem, fun b hb => h.outranks b ((hmem b).mpr hb)⟩

/-- Going through the suggestions and keeping the better one finds the best. -/
theorem foldl (first : String × Int) (rest : List (String × Int)) :
    IsBest (rest.foldl betterSuggestion first) (first :: rest) := by
  induction rest generalizing first with
  | nil => exact ⟨List.mem_cons_self, fun b hb => List.mem_singleton.mp hb ▸ Outranks.refl _⟩
  | cons next rest ih =>
    obtain ⟨hchoice, hfirst, hnext⟩ := Outranks.betterSuggestion first next
    obtain ⟨hmem, hbest⟩ := ih (betterSuggestion first next)
    have hkept := hbest _ List.mem_cons_self
    rw [List.foldl_cons]
    constructor
    · rcases List.mem_cons.mp hmem with hmem | hmem
      · rcases hchoice with hchoice | hchoice
        · rw [hmem, hchoice]
          exact List.mem_cons_self
        · rw [hmem, hchoice]
          exact List.mem_cons_of_mem first List.mem_cons_self
      · exact List.mem_cons_of_mem first (List.mem_cons_of_mem next hmem)
    · intro b hb
      rcases List.mem_cons.mp hb with rfl | hb
      · exact hkept.trans hfirst
      · rcases List.mem_cons.mp hb with rfl | hb
        · exact hkept.trans hnext
        · exact hbest b (List.mem_cons_of_mem _ hb)

end IsBest

namespace Graph

/-- The elements that an id fits, with their scores. -/
def scored (g : Graph) (target : String) : List (String × Int) :=
  (g.nodes.filter fun n => !n.kind.isPart).filterMap fun n =>
    (Similarity.score n.id target).map fun score => (n.id, score)

/-- An id that fits no element makes no suggestion. -/
theorem suggestion?_of_nil {g : Graph} {target : String} (h : g.scored target = []) :
    g.suggestion? target = none := by
  unfold suggestion?
  rw [scored] at h
  rw [h]

theorem suggestion?_of_cons {g : Graph} {target : String} {first : String × Int}
    {rest : List (String × Int)} (h : g.scored target = first :: rest) :
    g.suggestion? target = some (rest.foldl betterSuggestion first).1 := by
  unfold suggestion?
  rw [scored] at h
  rw [h]

/-- **The suggestion is the best of the elements that the id fits.** -/
theorem suggestion?_eq_some_iff {g : Graph} {target id : String} :
    g.suggestion? target = some id ↔ ∃ score, IsBest (id, score) (g.scored target) := by
  cases hscored : g.scored target with
  | nil =>
    rw [suggestion?_of_nil hscored]
    constructor
    · intro h
      cases h
    · rintro ⟨score, h⟩
      exact absurd h.mem List.not_mem_nil
  | cons first rest =>
    rw [suggestion?_of_cons hscored]
    constructor
    · intro h
      obtain rfl := Option.some.inj h
      exact ⟨_, IsBest.foldl first rest⟩
    · rintro ⟨score, h⟩
      exact congrArg (fun p => some p.1) ((IsBest.foldl first rest).unique h)

/-- **The order of the nodes does not matter to the suggestion.** -/
theorem suggestion?_eq_of_mem_iff {g h : Graph} {target : String}
    (hmem : ∀ x, x ∈ g.scored target ↔ x ∈ h.scored target) :
    g.suggestion? target = h.suggestion? target := by
  refine Option.ext fun id => ?_
  rw [suggestion?_eq_some_iff, suggestion?_eq_some_iff]
  exact exists_congr fun score =>
    ⟨fun hbest => hbest.congr hmem, fun hbest => hbest.congr fun x => (hmem x).symm⟩

end Graph

end CsdlAudit
