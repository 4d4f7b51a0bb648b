import CsdlAudit.Natural
import CsdlAudit.Toml.Moment
import CsdlAudit.Toml.Table

/-!
# Truth values, numbers and moments

What stands without quotes in the place of a value is a truth value, a number or a moment. Digits
may be grouped by single underscores. A whole number must be one that can be stored.
-/

namespace CsdlAudit.Toml

/-- The digits of a base without the underscores that group them. -/
def grouped? (base : Nat) (cs : List Char) : Option (List Char) :=
  let groups := cs.splitOn '_'
  if groups.all (fun g => !g.isEmpty && g.all (fun c => (Text.digitValue? base c).isSome)) then
    some groups.flatten
  else none

/-- The decimal digits of a number that starts with no zero but its only digit. -/
def wholeDigits? (cs : List Char) : Option (List Char) :=
  (grouped? 10 cs).filter (fun ds => ds.head? != some '0' || ds.length == 1)

/-- Reads a whole number. -/
def integer? (cs : List Char) : Option Int :=
  let inBase (base : Nat) (cs : List Char) : Option Int :=
    ((grouped? base cs).bind (Text.natural? base)).map Int.ofNat
  let n? :=
    match cs with
    | '0' :: 'x' :: cs => inBase 16 cs
    | '0' :: 'o' :: cs => inBase 8 cs
    | '0' :: 'b' :: cs => inBase 2 cs
    | cs =>
      ((wholeDigits? (Text.signed cs).2).bind (Text.natural? 10)).map
        (fun n => if (Text.signed cs).1 then -(n : Int) else n)
  n?.filter fitsInteger

/-- A character of grouped decimal digits. -/
def isGroupedDigit (c : Char) : Bool := c.isDigit || c == '_'

/-- Reads an exponent behind its letter, zero if there is none. -/
def exponent? : List Char → Option Int
  | [] => some 0
  | c :: cs =>
    if c = 'e' ∨ c = 'E' then
      ((grouped? 10 (Text.signed cs).2).bind (Text.natural? 10)).map
        (fun n => if (Text.signed cs).1 then -(n : Int) else n)
    else none

/-- Reads a number with a fraction or an exponent. One that is too great is refused, one that is too
small is minus infinity. -/
def number? (cs : List Char) : Option Double :=
  let (negative, body) := Text.signed cs
  if body = "inf".toList then some (.infinite negative)
  else if body = "nan".toList then some .nan
  else
    let whole := body.takeWhile isGroupedDigit
    let rest := body.dropWhile isGroupedDigit
    if rest.isEmpty then none
    else do
      let digits ← wholeDigits? whole
      let (places, rest) ←
        match rest with
        | '.' :: rest =>
          (grouped? 10 (rest.takeWhile isGroupedDigit)).map
            (fun places => (places, rest.dropWhile isGroupedDigit))
        | _ => some ([], rest)
      let exponent ← exponent? rest
      (some (Double.ofParts negative digits places exponent)).filter (· != .infinite false)

/-- **Reads what stands without quotes in the place of a value.** -/
def scalar? (cs : List Char) : Option Value :=
  if cs = "true".toList then some (.bool true)
  else if cs = "false".toList then some (.bool false)
  else
    match integer? cs with
    | some n => some (.integer n)
    | none =>
      match number? cs with
      | some x => some (.number x)
      | none => (moment? cs).map (fun m => .moment (String.ofList m))

end CsdlAudit.Toml
