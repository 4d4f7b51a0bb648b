import CsdlAudit.Json
import CsdlAudit.Natural
import CsdlAudit.Text.Pieces

/-!
# Binary floating-point numbers

Numbers of the form `mantissa * 2 ^ exponent` with 53 binary digits, as means and settings with a
fraction are stored. A quotient or a decimal number is taken for the nearest of them, and one of
them is written with the fewest digits that are read back as the same number, always in positional
notation.
-/

namespace CsdlAudit

/-- **A quotient rounded to the nearest natural number**; a half goes to the even neighbour. -/
def roundedQuotient (n d : Nat) : Nat :=
  let q := n / d
  let twice := 2 * (n % d)
  if twice < d then q
  else if d < twice then q + 1
  else if q % 2 = 0 then q else q + 1

/-- A number of units of the last of `places` decimal places, in digits. -/
def placesText (units places : Nat) : String :=
  String.ofList (Json.decimalDigits (Int.ofNat units) places)

/-- **A binary floating-point number.** -/
inductive Double where
  /-- The number `mantissa * 2 ^ exponent`, below zero if `negative`. -/
  | finite (negative : Bool) (mantissa : Nat) (exponent : Int)
  /-- Beyond all finite numbers. -/
  | infinite (negative : Bool)
  /-- No number. -/
  | nan
deriving DecidableEq, Repr

namespace Double

/-- The least exponent. -/
def minExponent : Int := -1074

/-- The greatest exponent of a number with a full mantissa. -/
def maxExponent : Int := 971

/-- How many binary digits a natural number has. -/
def bitLength (n : Nat) : Nat := if n = 0 then 0 else n.log2 + 1

/-- The quotient `n / d` in units of `2 ^ e`, rounded to the nearest natural number. -/
def inUnits (n d : Nat) (e : Int) : Nat :=
  roundedQuotient (n * twoTo (-e).toNat) (d * twoTo e.toNat)

/-- The floating-point number nearest to `n / d`; a tie goes to the even mantissa. -/
def ofQuotient (negative : Bool) (n d : Nat) : Double :=
  if n = 0 then .finite negative 0 minExponent
  else
    let guess : Int := (bitLength n : Int) - bitLength d - 53
    let e := max minExponent (if inUnits n d guess < twoTo 53 then guess else guess + 1)
    let m := inUnits n d e
    let (m, e) := if m = twoTo 53 then (twoTo 52, e + 1) else (m, e)
    if maxExponent < e then .infinite negative else .finite negative m e

/-- **The floating-point number nearest to** `digits * 10 ^ exponent`. -/
def ofDecimal (negative : Bool) (digits : Nat) (exponent : Int) : Double :=
  let size : Int := exponent + (Nat.toDigits 10 digits).length
  if digits = 0 ∨ size < -400 then .finite negative 0 minExponent
  else if 400 < size then .infinite negative
  else .ofQuotient negative (digits * tenTo exponent.toNat) (tenTo (-exponent).toNat)

/-- The number that digits before and behind a point write, with an exponent of ten. -/
def ofParts (negative : Bool) (whole places : List Char) (exponent : Int) : Double :=
  .ofDecimal negative ((Text.natural? 10 (whole ++ places)).getD 0) (exponent - places.length)

/-- Reads an exponent behind its letter, zero if there is none. -/
def exponent? : List Char → Option Int
  | [] => some 0
  | c :: cs => if c = 'e' ∨ c = 'E' then Text.integer? cs else none

/-- **Reads a number in decimal digits**, a point and an exponent being optional, or the name of
infinity or of no number in either case. -/
def read? (cs : List Char) : Option Double :=
  let (negative, body) := Text.signed cs
  let name := String.ofList (body.map Char.toLower)
  if name = "inf" ∨ name = "infinity" then some (.infinite negative)
  else if name = "nan" then some .nan
  else
    let whole := body.takeWhile Char.isDigit
    let rest := body.dropWhile Char.isDigit
    let (places, rest) :=
      match rest with
      | '.' :: rest => (rest.takeWhile Char.isDigit, rest.dropWhile Char.isDigit)
      | _ => ([], rest)
    if whole.isEmpty && places.isEmpty then none
    else (exponent? rest).map (ofParts negative whole places)

/-- Whether the number is zero. -/
def isZero : Double → Bool
  | .finite _ m _ => m == 0
  | _ => false

/-- The nearest natural number below `2 ^ 64`; a half goes up. -/
def toCount : Double → Nat
  | .finite negative m e =>
    if negative then 0
    else min (countBound - 1) ((2 * m * twoTo e.toNat + twoTo (-e).toNat) / (2 * twoTo (-e).toNat))
  | .infinite negative => if negative then 0 else countBound - 1
  | .nan => 0

/-- The number, if it is not below zero, in units of the last of `places` decimal places; a half
goes to the even neighbour. -/
def inPlaces : Double → (places : Nat) → Nat
  | .finite _ m e, places => roundedQuotient (m * twoTo e.toNat * tenTo places) (twoTo (-e).toNat)
  | _, _ => 0

/-! ## Writing -/

/-- Whether `c * 10 ^ k ≤ y * 2 ^ e`. -/
def decimalLe (c : Nat) (k : Int) (y : Nat) (e : Int) : Bool :=
  c * tenTo k.toNat * twoTo (-e).toNat ≤ y * twoTo e.toNat * tenTo (-k).toNat

/-- Whether `y * 2 ^ e ≤ c * 10 ^ k`. -/
def leDecimal (y : Nat) (e : Int) (c : Nat) (k : Int) : Bool :=
  y * twoTo e.toNat * tenTo (-k).toNat ≤ c * tenTo k.toNat * twoTo (-e).toNat

/-- Whether `c * 10 ^ k` is read as the number `m * 2 ^ e`: it lies between the middles to the
neighbours, which belong to the number if its mantissa is even. -/
def readsAs (m : Nat) (e : Int) (c : Nat) (k : Int) : Bool :=
  let below := if m = twoTo 52 ∧ minExponent < e then 4 * m - 1 else 4 * m - 2
  let above := 4 * m + 2
  if m % 2 = 0 then leDecimal below (e - 2) c k && decimalLe c k above (e - 2)
  else !decimalLe c k below (e - 2) && !leDecimal above (e - 2) c k

/-- The decimal `c * 10 ^ k` nearest to `m * 2 ^ e` of the two on the grid of `10 ^ k`, if it is
read as that number. -/
def onGrid? (m : Nat) (e k : Int) : Option Nat :=
  let n := m * twoTo e.toNat * tenTo (-k).toNat
  let d := twoTo (-e).toNat * tenTo k.toNat
  let nearest := roundedQuotient n d
  let other := if nearest = n / d then nearest + 1 else n / d
  if readsAs m e nearest k then some nearest
  else if readsAs m e other k then some other
  else none

/-- The first grid, from `10 ^ k` on downwards, with a decimal that is read as the number. -/
def shortestFrom (m : Nat) (e : Int) : (steps : Nat) → (k : Int) → Nat × Int
  | 0, k => (0, k)
  | steps + 1, k =>
    match onGrid? m e k with
    | some c => (c, k)
    | none => shortestFrom m e steps (k - 1)

/-- **The fewest digits that are read as** `m * 2 ^ e`, with their power of ten. -/
def shortest (m : Nat) (e : Int) : Nat × Int :=
  let whole := m * twoTo e.toNat / twoTo (-e).toNat
  shortestFrom m e 1100 (Nat.toDigits 10 whole).length

/-- The number `c * 10 ^ k` as a JSON value, with a point. -/
def decimalJson (negative : Bool) (c : Nat) (k : Int) : Json :=
  let units : Int := (c * tenTo (k + 1).toNat : Nat)
  if 0 ≤ k then .decimal (if negative then -units else units) 1
  else .decimal (if negative then -(c : Int) else c) (-k).toNat

/-- The number as a JSON value; what is not finite is `null`. -/
def toJson : Double → Json
  | .finite negative m e =>
    if m = 0 then .decimal 0 1
    else decimalJson negative (shortest m e).1 (shortest m e).2
  | _ => .null

/-- A decimal in positional notation. -/
def positional (c : Nat) (k : Int) : String :=
  if 0 ≤ k then toString (c * tenTo k.toNat)
  else placesText c (-k).toNat

/-- **The number in decimal digits.** -/
def display : Double → String
  | .finite negative m e =>
    let sign := if negative then "-" else ""
    if m = 0 then sign ++ "0"
    else sign ++ positional (shortest m e).1 (shortest m e).2
  | .infinite negative => if negative then "-inf" else "inf"
  | .nan => "NaN"

/-- The number in decimal digits, with a point if it is finite. -/
def displayPointed (x : Double) : String :=
  match x with
  | .finite .. => if Text.holds '.' x.display then x.display else x.display ++ ".0"
  | _ => x.display

end Double

end CsdlAudit
