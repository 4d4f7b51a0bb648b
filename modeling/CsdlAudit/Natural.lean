/-!
# Natural numbers

Sums, powers, and the bounds of the numbers that are stored in 64 binary digits; and the numbers
that digits of a base up to 36 write, letters of either case standing for the digits from ten on.
-/

namespace CsdlAudit

/-- The sum of numbers. -/
def total : List Nat → Nat
  | [] => 0
  | n :: rest => n + total rest

@[simp] theorem total_nil : total [] = 0 := rfl

@[simp] theorem total_cons (n : Nat) (rest : List Nat) :
    total (n :: rest) = n + total rest := rfl

theorem total_append (ns ms : List Nat) : total (ns ++ ms) = total ns + total ms := by
  induction ns with
  | nil => exact (Nat.zero_add _).symm
  | cons n ns ih => rw [List.cons_append, total_cons, ih, total_cons, Nat.add_assoc]

/-- A power of two. -/
def twoTo (n : Nat) : Nat := Nat.pow 2 n

/-- A power of ten. -/
def tenTo (n : Nat) : Nat := Nat.pow 10 n

/-- A count is below this bound, the 64th power of two. -/
def countBound : Nat := 18446744073709551616

/-- An integer is below this bound, the 63rd power of two, and is not below its negative. -/
def integerBound : Int := 9223372036854775808

/-- Whether an integer can be stored. -/
def fitsInteger (n : Int) : Bool := decide (-integerBound ≤ n ∧ n < integerBound)

end CsdlAudit

namespace CsdlAudit.Text

/-- The value of a digit or letter. -/
def letterValue? (c : Char) : Option Nat :=
  if '0' ≤ c ∧ c ≤ '9' then some (c.toNat - 0x30)
  else if 'a' ≤ c ∧ c ≤ 'z' then some (c.toNat - 0x61 + 10)
  else if 'A' ≤ c ∧ c ≤ 'Z' then some (c.toNat - 0x41 + 10)
  else none

/-- The value of a digit of a base. -/
def digitValue? (base : Nat) (c : Char) : Option Nat :=
  (letterValue? c).filter (fun d => decide (d < base))

/-- The number that digits write, read on from `value`. -/
def naturalFrom (base : Nat) : (value : Nat) → List Char → Option Nat
  | value, [] => some value
  | value, c :: cs =>
    match digitValue? base c with
    | some d => naturalFrom base (base * value + d) cs
    | none => none

/-- **The number that one or more digits write.** -/
def natural? (base : Nat) : List Char → Option Nat
  | [] => none
  | cs => naturalFrom base 0 cs

/-- A sign and what follows it: whether it is a minus. Without a sign, all follows a plus. -/
def signed : List Char → Bool × List Char
  | '-' :: cs => (true, cs)
  | '+' :: cs => (false, cs)
  | cs => (false, cs)

/-- The integer that digits behind an optional sign write in base ten. -/
def integer? (cs : List Char) : Option Int :=
  (natural? 10 (signed cs).2).map (fun n => if (signed cs).1 then -(n : Int) else n)

end CsdlAudit.Text
