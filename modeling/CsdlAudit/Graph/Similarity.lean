/-!
# Similarity of names

`Similarity.score` says how well a pattern fits a name: the characters of the pattern stand in the
name in their order, and runs, starts of words and equal case count in its favour. A pattern without
capitals ignores case. `none` means that the pattern does not fit.

The score is found one character of the pattern at a time. A row holds, for each place in the name,
the best score that ends with a match there and the best that ends before it. Two rows take turns,
and a row keeps what it held two characters ago at the places before the first that the character
can take.
-/

namespace CsdlAudit.Similarity

/-- The classes of characters that tell where words start. -/
inductive CharClass where
  /-- No character. -/
  | none
  /-- A separator of parts. -/
  | hard
  /-- A separator of words. -/
  | soft
  /-- A digit. -/
  | digit
  /-- A capital. -/
  | upper
  /-- Anything else. -/
  | lower
deriving DecidableEq, Repr

/-- Whether a code point lies in a range. -/
def within (first last : Nat) (c : Char) : Bool := first ≤ c.toNat && c.toNat ≤ last

/-- The class of a character. -/
def classOf (c : Char) : CharClass :=
  if c.toNat = 0 then .none
  else if [' ', '/', '\\', '|', '(', ')', '[', ']', '\x7b', '\x7d'].contains c then .hard
  else if within 0x21 0x27 c || within 0x2A 0x2E c || within 0x3A 0x40 c || within 0x5E 0x60 c ||
      c = '~' then .soft
  else if within 0x30 0x39 c then .digit
  else if within 0x41 0x5A c then .upper
  else .lower

/-- What a match gains by standing behind a character of the class `before`. -/
def startBonus (before here : CharClass) : Int :=
  match before with
  | .none | .hard => 8
  | .soft => 7
  | .lower | .digit => if here = .upper then 6 else 0
  | .upper => 0

/-- The gains of the places of a name, behind a character of the class `before`. -/
def bonusesFrom (before : CharClass) : List Char → List Int
  | [] => []
  | c :: cs => startBonus before (classOf c) :: bonusesFrom (classOf c) cs

/-- The gains of the places of a name: the first counts twice. -/
def bonuses (name : List Char) : List Int :=
  match bonusesFrom .none name with
  | [] => []
  | b :: rest => 2 * b :: rest

/-- Whether a pattern has a capital, and so minds case. -/
def mindsCase (pattern : List Char) : Bool := pattern.any (within 0x41 0x5A)

/-- Whether a character of the pattern fits one of the name. -/
def fits (strict : Bool) (p c : Char) : Bool :=
  if strict then p = c else p.toLower = c.toLower

/-- The first places at which the characters of the pattern can stand one after the other, from
place `at'` on. -/
def firstPlaces (strict : Bool) (at' : Nat) : (pattern name : List Char) → Option (List Nat)
  | [], _ => some []
  | _ :: _, [] => none
  | p :: ps, c :: cs =>
    if fits strict p c then (firstPlaces strict (at' + 1) ps cs).map (at' :: ·)
    else firstPlaces strict (at' + 1) (p :: ps) cs

/-- The score of a place that nothing reaches. -/
def unreached : Int := -32768

/-- **What a row holds for a place.** -/
structure Cell where
  /-- The best score that ends with a match just before the place. -/
  matched : Int
  /-- The best score that ends with a match further back. -/
  skipped : Int
  /-- What a run of matches gains by going on. -/
  run : Int
deriving DecidableEq, Repr

/-- A row, one cell more than the name has places. -/
abbrev Row := List Cell

/-- The score of a match, less when only the case differs. -/
def matchScore (strict : Bool) (p c : Char) : Int := if !strict && p ≠ c then 14 else 16

/-- The cells of a row from the current one on. `places` are the name's characters ahead with their
gains, `stale` what the row held behind the current cell, `older` the other row from here on. -/
def fill (strict : Bool) (p : Char) (current : Cell) :
    (places : List (Char × Int)) → (stale older : Row) → Row
  | (c, bonus) :: places, s :: stale, o :: older =>
    let skipped := max (current.matched - 4) (current.skipped - 1)
    if fits strict p c then
      let run := max (max current.run bonus) 4
      let matched := max (o.matched + run) (o.skipped + bonus) + matchScore strict p c
      { current with run := run } :: fill strict p ⟨matched, skipped, s.run⟩ places stale older
    else current :: fill strict p ⟨unreached, skipped, 0⟩ places stale older
  | _, _, _ => [current]

/-- The row for a character of the pattern whose first place is `start`; `row` is what it held
before, `older` the row of the character before. -/
def nextRow (strict : Bool) (name : List (Char × Int)) (p : Char) (start : Nat) (row older : Row) :
    Row :=
  match row.drop start with
  | [] => row
  | current :: stale =>
    row.take start ++ fill strict p current (name.drop start) stale (older.drop start)

/-- The last row, for the characters of the pattern with their first places. -/
def lastRow (strict : Bool) (name : List (Char × Int)) :
    (pattern : List (Char × Nat)) → (row older : Row) → Row
  | [], _, older => older
  | (p, start) :: rest, row, older =>
    lastRow strict name rest older (nextRow strict name p start row older)

/-- The greatest of the scores. -/
def greatest : List Int → Int
  | [] => unreached
  | x :: xs => xs.foldl max x

/-- **How well a pattern fits a name.** -/
def score (name pattern : String) : Option Int :=
  let ps := pattern.toList
  let cs := name.toList
  match ps with
  | [] => some 0
  | _ =>
    let strict := mindsCase ps
    match firstPlaces strict 0 ps cs with
    | none => none
    | some starts =>
      let width := cs.length + 1
      let fresh : Row := List.replicate width ⟨unreached, unreached, 0⟩
      let zeroth : Row := List.replicate width ⟨unreached, -1, 0⟩
      let last := lastRow strict (cs.zip (bonuses cs)) (ps.zip starts) fresh zeroth
      some (greatest ((last.drop (starts.getLast?.getD 0)).map (·.matched)))

end CsdlAudit.Similarity
