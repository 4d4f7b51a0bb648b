import Mathlib.Algebra.Order.Field.Power
import Mathlib.Algebra.Order.Ring.Abs
import Mathlib.Data.Nat.Log
import Mathlib.Tactic.Linarith
import Mathlib.Tactic.NormNum
import Mathlib.Tactic.Positivity
import Mathlib.Tactic.Ring
import CsdlAudit.Double

/-!
# A quotient is taken for the nearest number

The *sizes* are what the finite numbers are without their sign. `Double.ofQuotient` chooses a unit,
a power of two, and counts the quotient in it. The unit is the least one, or so large that the count
takes nearly 53 binary digits (`Double.counted_inUnits`). Sizes that lie between two counts are then
so much smaller that they are no nearer (`RoundsTo.nearest`), so the nearest count is the nearest
size (`Double.nearest_ofQuotient`).
-/

namespace CsdlAudit

/-! ## Rounding to a natural number -/

/-- **A natural number nearest to a rational one**, and even if it lies in the middle of two. -/
structure RoundsTo (x : ℚ) (r : Nat) : Prop where
  /-- It is at most half a unit away. -/
  close : |(r : ℚ) - x| ≤ 1 / 2
  /-- If it is as much as that, it is even. -/
  even : |(r : ℚ) - x| = 1 / 2 → Even r

theorem RoundsTo.of_lt {x : ℚ} {r : Nat} (h : |(r : ℚ) - x| < 1 / 2) : RoundsTo x r :=
  ⟨h.le, fun he => absurd he h.ne⟩

theorem roundsTo_roundedQuotient (a : Nat) {b : Nat} (hb : 0 < b) :
    RoundsTo ((a : ℚ) / b) (roundedQuotient a b) := by
  have hb' : (0 : ℚ) < b := by exact_mod_cast hb
  have hrest : ((a % b : Nat) : ℚ) < b := by exact_mod_cast Nat.mod_lt a hb
  have hdiv : (a : ℚ) / b = (a / b : Nat) + (a % b : Nat) / (b : ℚ) := by
    rw [div_eq_iff hb'.ne', add_mul, div_mul_cancel₀ _ hb'.ne', mul_comm]
    exact_mod_cast (Nat.div_add_mod a b).symm
  have hdown : |((a / b : Nat) : ℚ) - a / b| = (a % b : Nat) / (b : ℚ) := by
    rw [hdiv, sub_add_cancel_left, abs_neg, abs_of_nonneg (by positivity)]
  have hup : |((a / b + 1 : Nat) : ℚ) - a / b| = 1 - (a % b : Nat) / (b : ℚ) := by
    have hle : ((a % b : Nat) : ℚ) / b ≤ 1 := (div_lt_one hb').mpr hrest |>.le
    rw [hdiv, Nat.cast_add, Nat.cast_one, add_sub_add_left_eq_sub,
      abs_of_nonneg (sub_nonneg.mpr hle)]
  show RoundsTo _ (if 2 * (a % b) < b then a / b else if b < 2 * (a % b) then a / b + 1
    else if a / b % 2 = 0 then a / b else a / b + 1)
  split
  · next hless =>
    have hless : (2 : ℚ) * (a % b : Nat) < b := by exact_mod_cast hless
    refine .of_lt ?_
    rw [hdown, div_lt_div_iff₀ hb' two_pos]
    linarith
  · split
    · next hmore =>
      have hmore : (b : ℚ) < 2 * (a % b : Nat) := by exact_mod_cast hmore
      refine .of_lt ?_
      rw [hup, sub_lt_comm, lt_div_iff₀ hb']
      linarith
    · next hless hmore =>
      have hmiddle : (2 : ℚ) * (a % b : Nat) = b := by
        exact_mod_cast le_antisymm (not_lt.mp hmore) (not_lt.mp hless)
      have hhalf : ((a % b : Nat) : ℚ) / b = 1 / 2 := by
        rw [div_eq_iff hb'.ne']
        linarith
      split
      · next heven => exact ⟨(hdown.trans hhalf).le, fun _ => Nat.even_iff.mpr heven⟩
      · next hodd =>
        refine ⟨(hup.trans (by rw [hhalf]; norm_num)).le, fun _ => ?_⟩
        exact Nat.even_add_one.mpr fun heven => hodd (Nat.even_iff.mp heven)

/-- Every other integer is at least half a unit away. -/
theorem RoundsTo.half_le {x : ℚ} {r : Nat} (h : RoundsTo x r) {k : ℤ} (hk : k ≠ r) :
    1 / 2 ≤ |(k : ℚ) - x| := by
  have hapart : (1 : ℚ) ≤ |(k : ℚ) - r| := by exact_mod_cast Int.one_le_abs (sub_ne_zero.mpr hk)
  have htriangle : |(k : ℚ) - r| ≤ |(k : ℚ) - x| + |(r : ℚ) - x| := by
    rw [← sub_sub_sub_cancel_right (k : ℚ) r x]
    exact abs_sub _ _
  linarith [h.close]

/-- **The nearest natural number is the nearest size** where sizes are integers, and also below
`2 ^ 52`, where there are others in between, if the number is not much smaller than that. -/
theorem RoundsTo.nearest {y u : ℚ} {m : Nat} (h : RoundsTo y m)
    (hu : (∃ k : ℤ, u = k) ∨ u ≤ 2 ^ 52 - 1 / 2 ∧ 2 ^ 52 - 1 / 4 ≤ y) :
    |(m : ℚ) - y| ≤ |u - y| ∧ (|(m : ℚ) - y| = |u - y| → u ≠ m → Even m) := by
  have hinteger : ∀ k : ℤ, |(m : ℚ) - y| ≤ |(k : ℚ) - y| := by
    intro k
    rcases eq_or_ne k m with rfl | hk
    · exact le_rfl
    · exact h.close.trans (h.half_le hk)
  rcases hu with ⟨k, rfl⟩ | ⟨hu, hy⟩
  · refine ⟨hinteger k, fun he hne => h.even (le_antisymm h.close ?_)⟩
    rw [he]
    exact h.half_le fun hk => hne (by rw [hk, Int.cast_natCast])
  · have hdistance : |u - y| = y - u := by
      rw [abs_sub_comm, abs_of_nonneg (by linarith)]
    obtain ⟨hlow, hhigh⟩ := abs_le.mp h.close
    rcases lt_or_ge y (2 ^ 52) with hless | hmore
    · have hm : m = 2 ^ 52 := by
        have hle : (m : ℚ) < 2 ^ 52 + 1 := by linarith
        have hge : (2 : ℚ) ^ 52 < m + 1 := by linarith
        have hle : m < 2 ^ 52 + 1 := by exact_mod_cast hle
        have hge : 2 ^ 52 < m + 1 := by exact_mod_cast hge
        omega
      have hvalue : |(m : ℚ) - y| = 2 ^ 52 - y := by
        rw [hm, Nat.cast_pow, Nat.cast_ofNat, abs_of_nonneg (by linarith)]
      refine ⟨by linarith, fun _ _ => ?_⟩
      rw [hm]
      decide
    · have hsmaller : |(m : ℚ) - y| ≤ y - 2 ^ 52 := by
        have hle := hinteger (2 ^ 52)
        rw [Int.cast_pow, Int.cast_ofNat, abs_sub_comm (2 ^ 52),
          abs_of_nonneg (sub_nonneg.mpr hmore)] at hle
        exact hle
      exact ⟨by linarith, fun he => by linarith⟩

namespace Double

/-! ## Sizes -/

/-- **The sizes of the finite numbers.** -/
def IsSize (v : ℚ) : Prop :=
  ∃ (m : Nat) (e : Int), m < twoTo 53 ∧ minExponent ≤ e ∧ e ≤ maxExponent ∧ v = m * 2 ^ e

/-- **A number is the nearest to a quotient** apart from the sign: none of the sizes is nearer, and
if another one is as near, the mantissa is even. A number beyond all finite ones stands for what is
at least half a unit larger than the greatest size. -/
inductive Nearest (negative : Bool) (q : ℚ) : Double → Prop
  /-- A finite number, with what makes its size one of the sizes and its mantissa full. -/
  | finite {m : Nat} {e : Int} (mantissa : m < twoTo 53) (low : minExponent ≤ e)
      (high : e ≤ maxExponent) (full : minExponent < e → twoTo 52 ≤ m)
      (nearest : ∀ v, IsSize v → |m * 2 ^ e - q| ≤ |v - q|)
      (even : ∀ v, IsSize v → v ≠ m * 2 ^ e → |m * 2 ^ e - q| = |v - q| → Even m) :
      Nearest negative q (.finite negative m e)
  /-- The number beyond all finite ones. -/
  | infinite (beyond : (2 ^ 54 - 1) * 2 ^ (970 : ℤ) ≤ q) : Nearest negative q (.infinite negative)

/-- Counted in a unit, a size is an integer, unless it has a smaller unit. -/
theorem IsSize.inUnits {v : ℚ} (hv : IsSize v) (e : Int) :
    (∃ k : ℤ, v / 2 ^ e = k) ∨ v / 2 ^ e ≤ 2 ^ 52 - 1 / 2 ∧ minExponent < e := by
  obtain ⟨m, e', hm, hlow, -, rfl⟩ := hv
  have hcount : (m : ℚ) * 2 ^ e' / 2 ^ e = m * 2 ^ (e' - e) := by
    rw [mul_div_assoc, zpow_sub₀ two_ne_zero]
  rw [hcount]
  rcases le_or_gt e e' with hle | hlt
  · obtain ⟨k, hk⟩ := Int.eq_ofNat_of_zero_le (sub_nonneg.mpr hle)
    refine Or.inl ⟨m * 2 ^ k, ?_⟩
    rw [hk]
    push_cast
    rw [zpow_natCast]
  · refine Or.inr ⟨?_, by omega⟩
    have hm : (m : ℚ) ≤ 2 ^ 53 - 1 := by
      have : m + 1 ≤ 2 ^ 53 := hm
      have : (m : ℚ) + 1 ≤ 2 ^ 53 := by exact_mod_cast this
      linarith
    have hunit : (2 : ℚ) ^ (e' - e) ≤ 2 ^ (-1 : ℤ) := zpow_le_zpow_right₀ one_le_two (by omega)
    calc (m : ℚ) * 2 ^ (e' - e) ≤ (2 ^ 53 - 1) * 2 ^ (-1 : ℤ) :=
          mul_le_mul hm hunit (by positivity) (by norm_num)
      _ = 2 ^ 52 - 1 / 2 := by norm_num

/-! ## Units -/

theorem roundsTo_inUnits (n : Nat) {d : Nat} (hd : 0 < d) (e : Int) :
    RoundsTo ((n : ℚ) / d / 2 ^ e) (inUnits n d e) := by
  have hcast : (n : ℚ) / d / 2 ^ e =
      ((n * twoTo (-e).toNat : Nat) : ℚ) / (d * twoTo e.toNat : Nat) := by
    unfold twoTo
    rcases le_total 0 e with he | he
    · obtain ⟨k, rfl⟩ := Int.eq_ofNat_of_zero_le he
      simp [div_div]
    · obtain ⟨k, hk⟩ := Int.eq_ofNat_of_zero_le (neg_nonneg.mpr he)
      obtain rfl : e = -(k : ℤ) := by omega
      simp [div_eq_mul_inv, mul_right_comm]
  rw [hcast]
  refine roundsTo_roundedQuotient _ (Nat.mul_pos hd ?_)
  exact Nat.two_pow_pos _

/-- A number is told by its binary digits up to a factor of two. -/
theorem bounds_bitLength {n : Nat} (hn : 0 < n) :
    (2 : ℚ) ^ ((bitLength n : ℤ) - 1) ≤ n ∧ (n : ℚ) < 2 ^ (bitLength n : ℤ) := by
  have hlog : bitLength n = n.log2 + 1 := if_neg hn.ne'
  have hle : 2 ^ n.log2 ≤ n := Nat.log2_self_le hn.ne'
  have hlt : n < 2 ^ (n.log2 + 1) := Nat.lt_log2_self
  rw [hlog]
  refine ⟨?_, ?_⟩
  · rw [Nat.cast_add, Nat.cast_one, add_sub_cancel_right, zpow_natCast]
    exact_mod_cast hle
  · rw [zpow_natCast]
    exact_mod_cast hlt

/-- The unit, as a power of two, in which the binary digits say a quotient has about 53 of them. -/
def guessedExponent (n d : Nat) : Int := (bitLength n : Int) - bitLength d - 53

/-- The unit in which a quotient is counted. -/
def unitExponent (n d : Nat) : Int :=
  max minExponent (if inUnits n d (guessedExponent n d) < twoTo 53 then guessedExponent n d
    else guessedExponent n d + 1)

/-- In the guessed unit the count has 53 or 54 digits. -/
theorem bounds_guessedExponent {n d : Nat} (hn : 0 < n) (hd : 0 < d) :
    (2 : ℚ) ^ 52 ≤ n / d / 2 ^ guessedExponent n d ∧
      (n : ℚ) / d / 2 ^ guessedExponent n d < 2 ^ 54 := by
  have hd' : (0 : ℚ) < d := by exact_mod_cast hd
  obtain ⟨hnlow, hnhigh⟩ := bounds_bitLength hn
  obtain ⟨hdlow, hdhigh⟩ := bounds_bitLength hd
  generalize hguess : guessedExponent n d = guess
  unfold guessedExponent at hguess
  constructor
  · rw [le_div_iff₀ (by positivity), le_div_iff₀ hd']
    calc (2 : ℚ) ^ 52 * 2 ^ guess * d ≤ 2 ^ 52 * 2 ^ guess * 2 ^ (bitLength d : ℤ) := by gcongr
      _ = 2 ^ ((bitLength n : ℤ) - 1) := by
        rw [← zpow_natCast, ← zpow_add₀ two_ne_zero, ← zpow_add₀ two_ne_zero]
        congr 1
        omega
      _ ≤ n := hnlow
  · rw [div_lt_iff₀ (by positivity), div_lt_iff₀ hd']
    calc (n : ℚ) < 2 ^ (bitLength n : ℤ) := hnhigh
      _ = 2 ^ 54 * 2 ^ guess * 2 ^ ((bitLength d : ℤ) - 1) := by
        rw [← zpow_natCast, ← zpow_add₀ two_ne_zero, ← zpow_add₀ two_ne_zero]
        congr 1
        omega
      _ ≤ 2 ^ 54 * 2 ^ guess * d := by gcongr

/-- **A number counted in a unit that suits it**: the count has at most 53 binary digits, and nearly
as many unless the unit is the least. -/
structure Counted (q : ℚ) (e : Int) (m : Nat) : Prop where
  /-- The count is the nearest one. -/
  round : RoundsTo (q / 2 ^ e) m
  /-- It is not too large. -/
  few : q / 2 ^ e < 2 ^ 53
  /-- It is not too small, if there are smaller units. -/
  many : minExponent < e → 2 ^ 52 - 1 / 4 ≤ q / 2 ^ e
  /-- The unit is one of those that there are. -/
  low : minExponent ≤ e

/-- **A quotient is counted in a unit that suits it.** -/
theorem counted_inUnits {n d : Nat} (hn : 0 < n) (hd : 0 < d) :
    Counted ((n : ℚ) / d) (unitExponent n d) (inUnits n d (unitExponent n d)) := by
  obtain ⟨hlow, hhigh⟩ := bounds_guessedExponent hn hd
  obtain ⟨hbelow, habove⟩ := abs_le.mp (roundsTo_inUnits n hd (guessedExponent n d)).close
  suffices hbounds : (n : ℚ) / d / 2 ^ unitExponent n d < 2 ^ 53 ∧
      (minExponent < unitExponent n d → 2 ^ 52 - 1 / 4 ≤ (n : ℚ) / d / 2 ^ unitExponent n d) from
    ⟨roundsTo_inUnits n hd _, hbounds.1, hbounds.2, le_max_left _ _⟩
  unfold unitExponent
  generalize guessedExponent n d = guess at *
  have hchosen : ∀ e, e = (if inUnits n d guess < twoTo 53 then guess else guess + 1) →
      (n : ℚ) / d / 2 ^ e < 2 ^ 53 ∧ 2 ^ 52 - 1 / 4 ≤ (n : ℚ) / d / 2 ^ e := by
    rintro e rfl
    split
    · next hfew =>
      have hfew : ((inUnits n d guess : Nat) : ℚ) + 1 ≤ 2 ^ 53 := by
        exact_mod_cast Nat.succ_le_of_lt hfew
      exact ⟨by linarith, by linarith⟩
    · next hmany =>
      have hmany : (2 : ℚ) ^ 53 ≤ (inUnits n d guess : Nat) := by
        exact_mod_cast not_lt.mp hmany
      rw [zpow_add_one₀ two_ne_zero, ← div_div]
      exact ⟨by linarith, by linarith⟩
  generalize (if inUnits n d guess < twoTo 53 then guess else guess + 1) = e at hchosen
  obtain ⟨hless, hmore⟩ := hchosen e rfl
  rcases le_total minExponent e with hle | hle
  · rw [max_eq_right hle]
    exact ⟨hless, fun _ => hmore⟩
  · rw [max_eq_left hle]
    refine ⟨lt_of_le_of_lt ?_ hless, fun hlt => absurd hlt (lt_irrefl _)⟩
    exact div_le_div_of_nonneg_left (by positivity) (by positivity)
      (zpow_le_zpow_right₀ one_le_two hle)

/-! ## The number that is chosen -/

/-- What is at least some count is at least as many smaller units. -/
theorem mul_zpow_le {q x : ℚ} {e : Int} (hx : 0 ≤ x) (hcount : x ≤ q / 2 ^ e) {i : Int}
    (hi : i ≤ e) : x * 2 ^ i ≤ q := by
  have hunit : (0 : ℚ) < 2 ^ e := by positivity
  calc x * 2 ^ i ≤ q / 2 ^ e * 2 ^ e :=
        mul_le_mul hcount (zpow_le_zpow_right₀ one_le_two hi) (by positivity) (hx.trans hcount)
    _ = q := div_mul_cancel₀ _ hunit.ne'

namespace Counted

variable {q : ℚ} {e : Int} {m : Nat} (h : Counted q e m)

include h

/-- No size is nearer than the count, and none is as near unless the count is even. -/
theorem nearest {v : ℚ} (hv : IsSize v) : |m * 2 ^ e - q| ≤ |v - q| ∧
    (v ≠ m * 2 ^ e → |m * 2 ^ e - q| = |v - q| → Even m) := by
  have hunit : (0 : ℚ) < 2 ^ e := by positivity
  have hscale : ∀ u : ℚ, |u - q| = |u / 2 ^ e - q / 2 ^ e| * 2 ^ e := by
    intro u
    rw [← sub_div, abs_div, abs_of_pos hunit, div_mul_cancel₀ _ hunit.ne']
  obtain ⟨hnearest, heven⟩ := h.round.nearest ((hv.inUnits e).imp_right (And.imp_right h.many))
  rw [hscale v, hscale (m * 2 ^ e), mul_div_cancel_right₀ _ hunit.ne']
  refine ⟨mul_le_mul_of_nonneg_right hnearest hunit.le, fun hne he => ?_⟩
  exact heven (mul_right_cancel₀ hunit.ne' he) fun hv => hne ((div_eq_iff hunit.ne').mp hv)

theorem infinite (hhigh : maxExponent < e) (negative : Bool) :
    Nearest negative q (.infinite negative) := by
  have hmany := h.many (lt_trans (by decide) hhigh)
  have hhigh : (971 : Int) < e := hhigh
  have hle := mul_zpow_le (by norm_num) hmany (i := 970 + 1 + 1) (by omega)
  rw [zpow_add_one₀ two_ne_zero, zpow_add_one₀ two_ne_zero] at hle
  exact .infinite (by linarith)

theorem finite (hhigh : e ≤ maxExponent) (hm : m ≠ twoTo 53) (negative : Bool) :
    Nearest negative q (.finite negative m e) := by
  obtain ⟨hbelow, habove⟩ := abs_le.mp h.round.close
  have hless : m < twoTo 53 := by
    have hle : (m : ℚ) < 2 ^ 53 + 1 := by linarith [h.few]
    have hle : m < 2 ^ 53 + 1 := by exact_mod_cast hle
    exact lt_of_le_of_ne (Nat.lt_succ_iff.mp hle) hm
  have hmore : minExponent < e → twoTo 52 ≤ m := by
    intro hmin
    have hlt : (2 : ℚ) ^ 52 < m + 1 := by linarith [h.many hmin]
    have hlt : 2 ^ 52 < m + 1 := by exact_mod_cast hlt
    exact Nat.lt_succ_iff.mp hlt
  exact .finite hless h.low hhigh hmore (fun v hv => (h.nearest hv).1)
    fun v hv hne he => (h.nearest hv).2 hne he

/-- A count of `2 ^ 53` is taken in the next unit, or is beyond all numbers if that is too large. -/
theorem carry (hm : m = twoTo 53) (negative : Bool) : Nearest negative q
    (if maxExponent < e + 1 then .infinite negative else .finite negative (twoTo 52) (e + 1)) := by
  have hm : (m : ℚ) = 2 ^ 53 := by rw [hm]; norm_num [twoTo]
  split
  · next hhigh =>
    have hcount : 2 ^ 53 - 1 / 2 ≤ q / 2 ^ e := by linarith [(abs_le.mp h.round.close).2]
    have hhigh : (971 : Int) < e + 1 := hhigh
    have hle := mul_zpow_le (by norm_num) hcount (i := 970 + 1) (by omega)
    rw [zpow_add_one₀ two_ne_zero] at hle
    exact .infinite (by linarith)
  · next hhigh =>
    have hvalue : ((twoTo 52 : Nat) : ℚ) * 2 ^ (e + 1) = m * 2 ^ e := by
      rw [hm, zpow_add_one₀ two_ne_zero]
      norm_num [twoTo]
      ring
    refine .finite (by decide) (h.low.trans (by omega)) (not_lt.mp hhigh) (fun _ => le_rfl)
      (fun v hv => ?_) fun _ _ _ _ => by decide
    rw [hvalue]
    exact (h.nearest hv).1

end Counted

theorem ofQuotient_eq (negative : Bool) {n : Nat} (hn : 0 < n) (d : Nat) :
    ofQuotient negative n d =
      if inUnits n d (unitExponent n d) = twoTo 53 then
        if maxExponent < unitExponent n d + 1 then .infinite negative
        else .finite negative (twoTo 52) (unitExponent n d + 1)
      else if maxExponent < unitExponent n d then .infinite negative
      else .finite negative (inUnits n d (unitExponent n d)) (unitExponent n d) := by
  rw [ofQuotient, if_neg hn.ne', unitExponent, guessedExponent]
  dsimp only
  generalize max minExponent _ = e
  by_cases hfull : inUnits n d e = twoTo 53
  · rw [if_pos hfull, if_pos hfull]
  · rw [if_neg hfull, if_neg hfull]

/-- **A quotient is taken for the nearest number.** -/
theorem nearest_ofQuotient (negative : Bool) (n : Nat) {d : Nat} (hd : 0 < d) :
    Nearest negative ((n : ℚ) / d) (ofQuotient negative n d) := by
  rcases Nat.eq_zero_or_pos n with rfl | hn
  · rw [show ofQuotient negative 0 d = .finite negative 0 minExponent from if_pos rfl]
    refine .finite (by decide) le_rfl (by decide) (fun hlt => absurd hlt (lt_irrefl _))
      (fun v _ => ?_) fun v _ _ _ => Even.zero
    simp
  · have hcounted := counted_inUnits hn hd
    rw [ofQuotient_eq negative hn]
    split
    · next hfull => exact hcounted.carry hfull negative
    · next hm =>
      split
      · next hhigh => exact hcounted.infinite hhigh negative
      · next hhigh => exact hcounted.finite (not_lt.mp hhigh) hm negative

end Double

end CsdlAudit
