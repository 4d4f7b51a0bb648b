/-!
# The middle of a shortest edit

Two lists of lines are compared by following, from both ends, the paths that reach furthest with a
number of edits. Where the two sides meet, a shortest edit passes; `middle?` gives that place.
-/

namespace CsdlAudit.LineDiff

/-- How many lines two lists have in common at their start. -/
def commonStart : (xs ys : List String) → Nat
  | x :: xs, y :: ys => if x = y then commonStart xs ys + 1 else 0
  | _, _ => 0

/-- How many lines two lists have in common at their end. -/
def commonEnd (xs ys : List String) : Nat := commonStart xs.reverse ys.reverse

/-- **The furthest places**, one for each diagonal. -/
structure Furthest where
  /-- The places; the diagonal 0 stands in the middle. -/
  places : Array Nat
  /-- Where the diagonal 0 stands. -/
  centre : Nat

namespace Furthest

/-- All places at the start, for diagonals up to `n` on both sides. -/
def start (n : Nat) : Furthest := ⟨Array.replicate (2 * n + 3) 0, n + 1⟩

/-- The place of a diagonal. -/
def at' (f : Furthest) (k : Int) : Nat := f.places.getD (k + f.centre).toNat 0

/-- Another place for a diagonal. -/
def put (f : Furthest) (k : Int) (x : Nat) : Furthest :=
  { f with places := f.places.setIfInBounds (k + f.centre).toNat x }

/-- The place on a diagonal from which the next edit goes on, with `d` edits. -/
def next (f : Furthest) (d : Nat) (k : Int) : Nat :=
  if k = -(d : Int) ∨ (k ≠ d ∧ f.at' (k - 1) < f.at' (k + 1)) then f.at' (k + 1)
  else f.at' (k - 1) + 1

end Furthest

/-- The diagonals that `d` edits can reach, highest first. -/
def diagonals (d : Nat) : List Int :=
  (List.range (d + 1)).map fun (i : Nat) => (d : Int) - 2 * (i : Int)

/-- What a pass over the diagonals ends with: the furthest places, or the place where the two sides
meet. -/
abbrev Pass := Furthest ⊕ (Nat × Nat)

/-- Whether a place lies inside of lists with `n` and `m` lines. -/
def inside (x : Nat) (y : Int) (n m : Nat) : Bool := x < n && 0 ≤ y && y < m

/-- One pass from the start. -/
def forward (old new : List String) (d : Nat) (back : Furthest) :
    Furthest → List Int → Pass
  | front, [] => .inl front
  | front, k :: ks =>
    let n := old.length
    let delta : Int := (n : Int) - new.length
    let x := front.next d k
    let y : Int := x - k
    let reached :=
      if inside x y n new.length then x + commonStart (old.drop x) (new.drop y.toNat) else x
    let front := front.put k reached
    if delta % 2 ≠ 0 ∧ (k - delta).natAbs + 1 ≤ d ∧ n ≤ reached + back.at' (delta - k) then
      .inr (x, y.toNat)
    else forward old new d back front ks

/-- One pass from the end. -/
def backward (old new : List String) (d : Nat) (front : Furthest) :
    Furthest → List Int → Pass
  | back, [] => .inl back
  | back, k :: ks =>
    let n := old.length
    let m := new.length
    let delta : Int := (n : Int) - m
    let x := back.next d k
    let y : Int := x - k
    let gain :=
      if inside x y n m then commonEnd (old.take (n - x)) (new.take (m - y.toNat)) else 0
    let back := back.put k (x + gain)
    if delta % 2 = 0 ∧ (k - delta).natAbs ≤ d ∧ n ≤ x + gain + front.at' (delta - k) then
      .inr (n - (x + gain), m - (y.toNat + gain))
    else backward old new d front back ks

/-- Passes with `d` edits and more, `rounds` of them at most. -/
def meet (old new : List String) (d : Nat) (front back : Furthest) :
    (rounds : Nat) → Option (Nat × Nat)
  | 0 => none
  | rounds + 1 =>
    match forward old new d back front (diagonals d) with
    | .inr place => some place
    | .inl front =>
      match backward old new d front back (diagonals d) with
      | .inr place => some place
      | .inl back => meet old new (d + 1) front back rounds

/-- **A place through which a shortest edit passes**: how many lines of both lists lie before
it. -/
def middle? (old new : List String) : Option (Nat × Nat) :=
  let rounds := (old.length + new.length + 1) / 2 + 1
  meet old new 0 (.start rounds) (.start rounds) rounds

end CsdlAudit.LineDiff
