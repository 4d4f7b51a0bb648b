import CsdlAudit.Natural

/-!
# JSON values

A JSON value and its two written forms. Fields keep the order in which they are listed, so a value
has one text in each: `Json.compact` on one line, `Json.pretty` with one item or field a line and
two spaces a level.
-/

namespace CsdlAudit

/-- **A JSON value.** -/
inductive Json where
  /-- The value `null`. -/
  | null
  /-- A truth value. -/
  | bool (b : Bool)
  /-- A whole number. -/
  | integer (n : Int)
  /-- The number `mantissa / 10 ^ places`, written with all its places. -/
  | decimal (mantissa : Int) (places : Nat)
  /-- A text. -/
  | text (s : String)
  /-- Values in order. -/
  | list (items : List Json)
  /-- Named values in order. -/
  | object (fields : List (String × Json))
deriving Inhabited, Repr

namespace Json

/-- A hexadecimal digit in lower case. -/
def hexDigit (n : Nat) : Char :=
  if n < 10 then Char.ofNat (0x30 + n) else Char.ofNat (0x61 + (n - 10))

/-- One character of a text as it stands between the quotes. -/
def escapeChar (c : Char) : List Char :=
  if c = '"' then ['\\', '"']
  else if c = '\\' then ['\\', '\\']
  else if c.toNat = 0x08 then ['\\', 'b']
  else if c.toNat = 0x0C then ['\\', 'f']
  else if c = '\n' then ['\\', 'n']
  else if c = '\r' then ['\\', 'r']
  else if c = '\t' then ['\\', 't']
  else if c.toNat < 0x20 then
    ['\\', 'u', '0', '0', hexDigit (c.toNat / 16), hexDigit (c.toNat % 16)]
  else [c]

/-- A text between quotes. -/
def quote (s : String) : List Char :=
  '"' :: (s.toList.flatMap escapeChar ++ ['"'])

/-- The digits of a natural number. -/
def digits (n : Nat) : List Char := Nat.toDigits 10 n

/-- A number with `places` digits behind the point. -/
def decimalDigits (mantissa : Int) (places : Nat) : List Char :=
  let sign := if mantissa < 0 then ['-'] else []
  let ds := digits mantissa.natAbs
  let padded := List.replicate (places + 1 - ds.length) '0' ++ ds
  let whole := padded.take (padded.length - places)
  if places = 0 then sign ++ whole else sign ++ whole ++ '.' :: padded.drop (padded.length - places)

/-- The written form of a whole number. -/
def integerDigits (n : Int) : List Char :=
  if n < 0 then '-' :: digits n.natAbs else digits n.natAbs

/-- The pieces one after the other with `separator` between them. -/
def separate (separator : List Char) : List (List Char) → List Char
  | [] => []
  | [p] => p
  | p :: rest => p ++ separator ++ separate separator rest

mutual

/-- The value on one line without spaces. -/
def compactChars : Json → List Char
  | .null => "null".toList
  | .bool true => "true".toList
  | .bool false => "false".toList
  | .integer n => integerDigits n
  | .decimal m p => decimalDigits m p
  | .text s => quote s
  | .list items => '[' :: (separate [','] (compactItems items) ++ [']'])
  | .object fields => '\x7b' :: (separate [','] (compactFields fields) ++ ['\x7d'])

/-- The items of a list, each on one line. -/
def compactItems : List Json → List (List Char)
  | [] => []
  | v :: rest => compactChars v :: compactItems rest

/-- The fields of an object, each on one line. -/
def compactFields : List (String × Json) → List (List Char)
  | [] => []
  | (k, v) :: rest => (quote k ++ ':' :: compactChars v) :: compactFields rest

end

/-- **The value on one line without spaces.** -/
def compact (v : Json) : String := String.ofList (compactChars v)

/-- A line break and the indentation of a level. -/
def lineBreak (level : Nat) : List Char := '\n' :: List.replicate (2 * level) ' '

/-- What stands between two brackets: nothing, or pieces on lines of their own. -/
def enclose (opening closing : Char) (level : Nat) : List (List Char) → List Char
  | [] => [opening, closing]
  | pieces =>
    opening :: (lineBreak (level + 1) ++ separate (',' :: lineBreak (level + 1)) pieces ++
      lineBreak level ++ [closing])

mutual

/-- The value with one item or field a line, inside a text that stands at `level`. -/
def prettyChars (level : Nat) : Json → List Char
  | .null => "null".toList
  | .bool true => "true".toList
  | .bool false => "false".toList
  | .integer n => integerDigits n
  | .decimal m p => decimalDigits m p
  | .text s => quote s
  | .list items => enclose '[' ']' level (prettyItems (level + 1) items)
  | .object fields => enclose '\x7b' '\x7d' level (prettyFields (level + 1) fields)

/-- The items of a list, each in its pretty form. -/
def prettyItems (level : Nat) : List Json → List (List Char)
  | [] => []
  | v :: rest => prettyChars level v :: prettyItems level rest

/-- The fields of an object, each in its pretty form. -/
def prettyFields (level : Nat) : List (String × Json) → List (List Char)
  | [] => []
  | (k, v) :: rest => (quote k ++ ':' :: ' ' :: prettyChars level v) :: prettyFields level rest

end

/-- **The value with one item or field a line**, two spaces a level. -/
def pretty (v : Json) : String := String.ofList (prettyChars 0 v)

/-! ## Reading fields -/

/-- The fields of an object; any other value has none to read. -/
def fields? : Json → Option (List (String × Json))
  | .object fields => some fields
  | _ => none

/-- The value of a field. -/
def field? (name : String) (fields : List (String × Json)) : Option Json :=
  (fields.find? (fun f => f.1 == name)).map Prod.snd

/-- The text that a value is. -/
def text? : Json → Option String
  | .text s => some s
  | _ => none

/-- The truth value that a value is. -/
def bool? : Json → Option Bool
  | .bool b => some b
  | _ => none

/-- The count that a value is. -/
def count? : Json → Option Nat
  | .integer n => if 0 ≤ n ∧ n < countBound then some n.toNat else none
  | _ => none

/-- The list of values that a value is, each read by `read`. -/
def list? {α : Type} (read : Json → Option α) : Json → Option (List α)
  | .list items => items.mapM read
  | _ => none

/-- A field that must be there. -/
def required {α : Type} (read : Json → Option α) (name : String)
    (fields : List (String × Json)) : Option α :=
  (field? name fields).bind read

/-- A field that may be absent or `null`. -/
def optional {α : Type} (read : Json → Option α) (name : String)
    (fields : List (String × Json)) : Option (Option α) :=
  match field? name fields with
  | none => some none
  | some .null => some none
  | some v => (read v).map some

/-- A field that may be absent and then has a value of its own. -/
def defaulted {α : Type} (absent : α) (read : Json → Option α) (name : String)
    (fields : List (String × Json)) : Option α :=
  match field? name fields with
  | none => some absent
  | some v => read v

/-! ## Writing fields -/

/-- A field that is left out when there is no value. -/
def optionalField {α : Type} (name : String) (write : α → Json) : Option α → List (String × Json)
  | none => []
  | some a => [(name, write a)]

/-- A field that is left out when the list is empty. -/
def listField {α : Type} (name : String) (write : α → Json) : List α → List (String × Json)
  | [] => []
  | items => [(name, .list (items.map write))]

/-- A text or `null`. -/
def ofText? : Option String → Json
  | none => .null
  | some s => .text s

/-- A list of texts. -/
def ofTexts (xs : List String) : Json := .list (xs.map .text)

end Json

end CsdlAudit
