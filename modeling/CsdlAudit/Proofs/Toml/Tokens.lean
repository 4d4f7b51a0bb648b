import Mathlib.Data.List.TakeWhile
import CsdlAudit.Proofs.Toml.Quoted
import CsdlAudit.Toml.Token

/-!
# Tokens of what is written

A word goes on as long as its characters do, and a quote behind a text would be read as one of its
own, so what a stretch of characters is read as depends on the next one. A fence is a character that
neither can take. Every mark is one, and every stretch here is followed by one, so the tokens of
stretches one behind the other are those of the stretches (`Lexes.append_mark`).
-/

namespace CsdlAudit.Toml

/-- What follows neither goes on with a word nor with a text. -/
def Fenced (rest : List Char) : Prop :=
  ∀ c, rest.head? = some c → isWordChar c = false ∧ c ≠ '"' ∧ c ≠ '\''

/-- **Characters are read as tokens** if what follows them is fenced. -/
def Lexes (cs : List Char) (ts : List Token) : Prop :=
  ∀ rest, Fenced rest → tokens? (cs ++ rest) = (tokens? rest).map (ts ++ ·)

section

variable {c : Char} {cs ds rest : List Char} {t : Token} {ts us : List Token}

theorem fenced_nil : Fenced [] := fun _ h => by cases h

/-- The first token is read, then the others. -/
theorem tokens?_cons (h : nextToken? c cs = some (t, rest)) (hlength : rest.length ≤ cs.length) :
    tokens? (c :: cs) = (tokens? rest).map (t :: ·) := by
  rw [tokens?, h]
  exact dif_pos (by omega)

/-! ## Marks -/

/-- A mark is a fence. -/
theorem fenced_mark (h : mark? c = some t) (rest : List Char) : Fenced (c :: rest) := by
  rintro d hd
  obtain rfl : c = d := Option.some.inj hd
  unfold mark? at h
  repeat' split at h
  all_goals first
    | next hc => subst hc; decide
    | cases h

/-- A mark is no character of a word. -/
theorem mark?_eq_none (h : isWordChar c = true ∨ c = '"' ∨ c = '\'') : mark? c = none := by
  cases hmark : mark? c with
  | none => rfl
  | some t =>
    obtain ⟨hword, hdouble, hsingle⟩ := fenced_mark hmark [] c rfl
    rcases h with h | h | h
    · exact absurd h (by simp [hword])
    · exact absurd h hdouble
    · exact absurd h hsingle

theorem lexes_nil : Lexes [] [] := by
  intro rest _
  rw [List.nil_append]
  cases tokens? rest <;> rfl

/-- A mark in front of a stretch. -/
theorem Lexes.mark_cons (h : mark? c = some t) (hcs : Lexes cs ts) : Lexes (c :: cs) (t :: ts) := by
  intro rest hrest
  have hnext : nextToken? c (cs ++ rest) = some (t, cs ++ rest) := by simp only [nextToken?, h]
  rw [List.cons_append, tokens?_cons hnext (Nat.le_refl _), hcs rest hrest, Option.map_map]
  rfl

/-- **Stretches with a mark between them.** -/
theorem Lexes.append_mark (hcs : Lexes cs ts) (h : mark? c = some t) (hds : Lexes ds us) :
    Lexes (cs ++ c :: ds) (ts ++ t :: us) := by
  intro rest hrest
  rw [List.append_assoc, List.cons_append, hcs _ (fenced_mark h _), ← List.cons_append,
    (hds.mark_cons h) rest hrest, Option.map_map]
  congr 1
  funext more
  simp

/-! ## Words and texts -/

/-- **A word** is read up to its fence. -/
theorem lexes_word (hne : cs ≠ []) (h : ∀ c ∈ cs, isWordChar c = true) :
    Lexes cs [.word cs] := by
  intro rest hrest
  obtain ⟨c, cs, rfl⟩ := List.exists_cons_of_ne_nil hne
  obtain ⟨hc, hcs⟩ := List.forall_mem_cons.mp h
  have hstop : rest.takeWhile isWordChar = [] ∧ rest.dropWhile isWordChar = rest := by
    cases rest with
    | nil => exact ⟨rfl, rfl⟩
    | cons d rest => simp [(hrest d rfl).1]
  have hnext : nextToken? c (cs ++ rest) = some (.word (c :: cs), rest) := by
    have hhash : c ≠ '#' := fun e => absurd hc (by rw [e]; decide)
    have hquotes : ¬(c = '"' ∨ c = '\'') := by
      rintro (rfl | rfl) <;> exact absurd hc (by decide)
    simp only [nextToken?, mark?_eq_none (Or.inl hc), if_neg hhash, if_neg hquotes, if_pos hc,
      List.takeWhile_append_of_pos hcs, List.dropWhile_append_of_pos hcs, hstop.1, hstop.2,
      List.append_nil]
  rw [List.cons_append, tokens?_cons hnext (by simp)]
  rfl

/-- The token of a written text. -/
def textToken (s : String) : Token := .text (quotingOf s.toList).block s

/-- **A text** is read up to its closing quotes. -/
theorem lexes_writeText (s : String) : Lexes (writeText s) [textToken s] := by
  intro rest hrest
  have hquote : markOf s = '"' ∨ markOf s = '\'' := by
    unfold markOf Quoting.mark
    cases (quotingOf s.toList).literal
    · exact Or.inl rfl
    · exact Or.inr rfl
  have hfence : rest.head? ≠ some (markOf s) := by
    intro h
    obtain ⟨-, hdouble, hsingle⟩ := hrest _ h
    exact hquote.elim hdouble hsingle
  have hhash : markOf s ≠ '#' := by rcases hquote with h | h <;> rw [h] <;> decide
  have hnext : nextToken? (markOf s) (behindMark s ++ rest) = some (textToken s, rest) := by
    simp only [nextToken?, mark?_eq_none (Or.inr hquote), if_neg hhash, if_pos hquote,
      readText?_writeText s hfence, Option.map_some]
    rfl
  rw [writeText_eq, List.cons_append, tokens?_cons hnext (by simp)]
  rfl

end

end CsdlAudit.Toml
