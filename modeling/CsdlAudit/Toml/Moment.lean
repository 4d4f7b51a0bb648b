import CsdlAudit.Natural

/-!
# Dates and times

A moment is a date, a time of day or both, and both may be followed by the distance from universal
time. `moment?` reads one and gives it in one form: a `T` between date and time, a `Z` for no
distance given by that letter, and a fraction of a second without zeros at its end.
-/

namespace CsdlAudit.Toml

/-- A number of exactly `count` decimal digits in a range, and what follows it. -/
def field? (count low high : Nat) (cs : List Char) : Option (Nat × List Char) :=
  match Text.natural? 10 (cs.take count) with
  | some n =>
    if (cs.take count).length = count ∧ low ≤ n ∧ n ≤ high then some (n, cs.drop count) else none
  | none => none

/-- What follows a character that must stand there. -/
def after? (c : Char) : List Char → Option (List Char)
  | d :: ds => if d = c then some ds else none
  | [] => none

/-- How many days a month has. -/
def daysIn (year month : Nat) : Nat :=
  if month = 2 then
    if year % 4 = 0 ∧ (year % 100 ≠ 0 ∨ year % 400 = 0) then 29 else 28
  else if month = 4 ∨ month = 6 ∨ month = 9 ∨ month = 11 then 30
  else 31

/-- A number in at least `width` digits. -/
def padded (width n : Nat) : List Char :=
  let ds := Nat.toDigits 10 n
  List.replicate (width - ds.length) '0' ++ ds

/-- Reads a date. -/
def date? (cs : List Char) : Option (List Char × List Char) := do
  let (year, cs) ← field? 4 0 9999 cs
  let cs ← after? '-' cs
  let (month, cs) ← field? 2 1 12 cs
  let cs ← after? '-' cs
  let (day, cs) ← field? 2 1 (daysIn year month) cs
  return (padded 4 year ++ '-' :: padded 2 month ++ '-' :: padded 2 day, cs)

/-- A fraction of a second to nine places, without zeros at its end. -/
def fraction (digits : List Char) : List Char :=
  match ((digits.take 9).reverse.dropWhile (· == '0')).reverse with
  | [] => []
  | ds => '.' :: ds

/-- Reads a time of day. -/
def time? (cs : List Char) : Option (List Char × List Char) := do
  let (hour, cs) ← field? 2 0 23 cs
  let cs ← after? ':' cs
  let (minute, cs) ← field? 2 0 59 cs
  let cs ← after? ':' cs
  let (second, cs) ← field? 2 0 60 cs
  let whole := padded 2 hour ++ ':' :: padded 2 minute ++ ':' :: padded 2 second
  match cs with
  | '.' :: cs =>
    let digits := cs.takeWhile Char.isDigit
    if digits.isEmpty then none
    else some (whole ++ fraction digits, cs.dropWhile Char.isDigit)
  | _ => some (whole, cs)

/-- Reads the distance from universal time, if there is one; a distance of nothing is never below
zero. -/
def offset? (cs : List Char) : Option (List Char) :=
  match cs with
  | [] => some []
  | 'Z' :: [] => some ['Z']
  | 'z' :: [] => some ['Z']
  | sign :: cs =>
    if sign = '+' ∨ sign = '-' then do
      let (hour, cs) ← field? 2 0 23 cs
      let cs ← after? ':' cs
      let (minute, cs) ← field? 2 0 59 cs
      if cs.isEmpty then
        let sign := if hour = 0 ∧ minute = 0 then '+' else sign
        some (sign :: padded 2 hour ++ ':' :: padded 2 minute)
      else none
    else none

/-- **Reads a moment** and gives it in its one form. -/
def moment? (cs : List Char) : Option (List Char) :=
  match date? cs with
  | some (date, []) => some date
  | some (date, delimiter :: cs) =>
    if delimiter = 'T' ∨ delimiter = 't' ∨ delimiter = ' ' then do
      let (time, cs) ← time? cs
      return date ++ 'T' :: time ++ (← offset? cs)
    else none
  | none =>
    match time? cs with
    | some (time, []) => some time
    | _ => none

end CsdlAudit.Toml
