import CsdlAudit.Natural
import CsdlAudit.Toml.Scalar

/-!
# Counts and truth values are read back

What stands without quotes in the place of a value is tried as a truth value, as a whole number, as
a number with a fraction and as a moment, in this order. The decimal digits of a count are a whole
number in no other base and with no sign (`Toml.scalar?_toDigits`).
-/

namespace CsdlAudit

namespace Text

variable {cs : List Char}

theorem digitValue?_of_isDigit {c : Char} (h : c.isDigit = true) :
    digitValue? 10 c = some (c.toNat - '0'.toNat) := by
  have hrange : '0' ≤ c ∧ c ≤ '9' := by simpa [Char.isDigit, Char.le_def] using h
  have hlt : c.toNat - 48 < 10 := by
    have hlast : c.toNat ≤ 57 := hrange.2
    omega
  rw [digitValue?, letterValue?, if_pos hrange]
  simp [hlt]

/-- Decimal digits are read as the number that they write. -/
theorem naturalFrom_eq (h : ∀ c ∈ cs, c.isDigit = true) (value : Nat) :
    naturalFrom 10 value cs = some (Nat.ofDigitChars 10 cs value) := by
  induction cs generalizing value with
  | nil => rfl
  | cons c cs ih =>
    obtain ⟨hc, hcs⟩ := List.forall_mem_cons.mp h
    simp only [naturalFrom, digitValue?_of_isDigit hc]
    exact ih hcs _

theorem isDigit_of_mem_toDigits {n : Nat} {c : Char} (h : c ∈ Nat.toDigits 10 n) :
    c.isDigit = true :=
  Nat.isDigit_of_mem_toDigits (by decide) (by decide) h

/-- **The digits of a number write the number.** -/
theorem natural?_toDigits (n : Nat) : natural? 10 (Nat.toDigits 10 n) = some n := by
  obtain ⟨c, cs, hcs⟩ := List.exists_cons_of_ne_nil (Nat.toDigits_ne_nil (n := n) (b := 10))
  have hread := naturalFrom_eq (fun _ => isDigit_of_mem_toDigits (n := n)) 0
  rw [Nat.ofDigitChars_toDigits (by decide) (by decide)] at hread
  rw [hcs] at hread ⊢
  exact hread

theorem signed_of_isDigit (h : ∀ c ∈ cs, c.isDigit = true) : signed cs = (false, cs) := by
  unfold signed
  split
  · exact absurd (h _ List.mem_cons_self) (by decide)
  · exact absurd (h _ List.mem_cons_self) (by decide)
  · rfl

end Text

namespace Toml

variable {cs : List Char}

/-- Decimal digits are one group. -/
theorem grouped?_of_isDigit (hne : cs ≠ []) (h : ∀ c ∈ cs, c.isDigit = true) :
    grouped? 10 cs = some cs := by
  have hsplit : cs.splitOn '_' = [cs] :=
    List.splitOn_eq_singleton fun hmem => absurd (h _ hmem) (by decide)
  have hall : (!cs.isEmpty && cs.all fun c => (Text.digitValue? 10 c).isSome) = true := by
    simp only [Bool.and_eq_true, Bool.not_eq_true', List.isEmpty_eq_false_iff, List.all_eq_true]
    exact ⟨hne, fun c hc => by rw [Text.digitValue?_of_isDigit (h c hc)]; rfl⟩
  simp [grouped?, hsplit, hall]

/-- No number but zero has a zero in front. -/
theorem eq_zero_of_head?_toDigits (n : Nat) (h : (Nat.toDigits 10 n).head? = some '0') : n = 0 := by
  induction n using Nat.strongRecOn with
  | ind n ih =>
    by_cases hn : n < 10
    · have hsmall : ∀ m < 10, Nat.digitChar m = '0' → m = 0 := by decide
      rw [Nat.toDigits_of_lt_base hn] at h
      exact hsmall n hn (Option.some.inj h)
    · rw [Nat.toDigits_of_base_le (by decide) (by omega),
        List.head?_append, Option.or_eq_some_iff] at h
      have hnonempty : (Nat.toDigits 10 (n / 10)).head? ≠ none := by
        simp [Nat.toDigits_ne_nil]
      have hfront := ih (n / 10) (by omega) (h.resolve_right fun h => hnonempty h.1)
      omega

theorem wholeDigits?_toDigits (n : Nat) :
    wholeDigits? (Nat.toDigits 10 n) = some (Nat.toDigits 10 n) := by
  rw [wholeDigits?, grouped?_of_isDigit Nat.toDigits_ne_nil fun _ => Text.isDigit_of_mem_toDigits]
  by_cases hn : n = 0
  · rw [hn]
    decide
  · have hhead : (Nat.toDigits 10 n).head? ≠ some '0' := fun h => hn (eq_zero_of_head?_toDigits n h)
    simp [hhead]

/-- Digits write a whole number in base ten and without a sign. -/
theorem integer?_toDigits {n : Nat} (h : fitsInteger n = true) :
    integer? (Nat.toDigits 10 n) = some (n : Int) := by
  have hdigits : ∀ c ∈ Nat.toDigits 10 n, c.isDigit = true := fun _ => Text.isDigit_of_mem_toDigits
  have hwhole := wholeDigits?_toDigits n
  have hvalue := Text.natural?_toDigits n
  unfold integer?
  dsimp only
  split
  · next heq =>
    exact absurd (hdigits 'x' (heq ▸ List.mem_cons_of_mem _ List.mem_cons_self)) (by decide)
  · next heq =>
    exact absurd (hdigits 'o' (heq ▸ List.mem_cons_of_mem _ List.mem_cons_self)) (by decide)
  · next heq =>
    exact absurd (hdigits 'b' (heq ▸ List.mem_cons_of_mem _ List.mem_cons_self)) (by decide)
  · rw [Text.signed_of_isDigit hdigits, hwhole]
    simp [hvalue, h]

/-- A word of letters is no digits. -/
theorem toDigits_ne {n : Nat} {c : Char} {cs : List Char} (h : c.isDigit = false) :
    Nat.toDigits 10 n ≠ c :: cs := by
  intro e
  have hdigit := Text.isDigit_of_mem_toDigits (e ▸ List.mem_cons_self : c ∈ Nat.toDigits 10 n)
  exact Bool.false_ne_true (h.symm.trans hdigit)

/-- **A count is read back** if it can be stored. -/
theorem scalar?_toDigits {n : Nat} (h : fitsInteger n = true) :
    scalar? (Nat.toDigits 10 n) = some (.integer n) := by
  have htrue : Nat.toDigits 10 n ≠ "true".toList := toDigits_ne (c := 't') (by decide)
  have hfalse : Nat.toDigits 10 n ≠ "false".toList := toDigits_ne (c := 'f') (by decide)
  rw [scalar?, if_neg htrue, if_neg hfalse, integer?_toDigits h]

end Toml

end CsdlAudit
