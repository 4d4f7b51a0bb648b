/-!
# Machines that come to an end

A machine goes on from one state to the next until it gives an answer. That it comes to an end is no
matter of course, so `Answers` says both: it does, and this is the answer.
-/

namespace CsdlAudit

variable {σ α : Type}

/-- **A machine answers**: from a state it comes to an end by its steps, and with this answer. -/
inductive Answers (step : σ → σ ⊕ α) : σ ⊕ α → α → Prop
  /-- It is at its end. -/
  | done (a : α) : Answers step (.inr a) a
  /-- It takes a step. -/
  | next {s : σ} {a : α} (rest : Answers step (step s) a) : Answers step (.inl s) a

namespace Answers

variable {step : σ → σ ⊕ α} {s t : σ} {a b : α} {start : σ ⊕ α}

/-- A step that is known is taken. -/
theorem of_step (h : step s = .inl t) (rest : Answers step (.inl t) a) :
    Answers step (.inl s) a :=
  next (h ▸ rest)

/-- An answer that is known is given. -/
theorem of_answer (h : step s = .inr a) : Answers step (.inl s) a :=
  next (h ▸ done a)

/-- **There is one answer at most.** -/
theorem unique (ha : Answers step start a) (hb : Answers step start b) : a = b := by
  induction ha with
  | done a => cases hb; rfl
  | next _ ih =>
    cases hb with
    | next rest => exact ih rest

/-- A machine that answers gives no other answer. -/
theorem iff_eq (h : Answers step start a) : Answers step start b ↔ b = a :=
  ⟨fun hb => hb.unique h, fun e => e ▸ h⟩

end Answers

end CsdlAudit
