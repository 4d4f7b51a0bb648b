/-!
# Pieces of a text

Cutting a text at a character, and testing or removing a beginning. At blanks, the characters with
the property `White_Space`, a text is taken apart in two ways: `trim` drops them at both ends and
`words` keeps what stands between them.
-/

namespace CsdlAudit.Text

/-- What follows `start` in `cs`, if `cs` begins with it. -/
def dropStart? : (start cs : List Char) → Option (List Char)
  | [], cs => some cs
  | _ :: _, [] => none
  | a :: start, c :: cs => if a = c then dropStart? start cs else none

/-- What follows `start` in the text, if the text begins with it. -/
def afterStart? (start s : String) : Option String :=
  (dropStart? start.toList s.toList).map String.ofList

/-- Whether the text begins with `start`. -/
def beginsWith (start s : String) : Bool := (dropStart? start.toList s.toList).isSome

/-- What stands before and after the first `c`. -/
def splitFirst (c : Char) (s : String) : Option (String × String) :=
  match s.toList.dropWhile (· != c) with
  | [] => none
  | _ :: after => some (String.ofList (s.toList.takeWhile (· != c)), String.ofList after)

/-- What stands before and after the last `c`. -/
def splitLast (c : Char) (s : String) : Option (String × String) :=
  let back := s.toList.reverse
  match back.dropWhile (· != c) with
  | [] => none
  | _ :: before =>
    some (String.ofList before.reverse, String.ofList (back.takeWhile (· != c)).reverse)

/-- What stands before the first `c`, the whole text if there is none. -/
def beforeFirst (c : Char) (s : String) : String := String.ofList (s.toList.takeWhile (· != c))

/-- What stands after the last `c`, the whole text if there is none. -/
def afterLast (c : Char) (s : String) : String :=
  String.ofList (s.toList.reverse.takeWhile (· != c)).reverse

/-- Whether `c` occurs in the text. -/
def holds (c : Char) (s : String) : Bool := s.toList.contains c

/-- The texts one after the other with `separator` between them. -/
def join (separator : String) : List String → String
  | [] => ""
  | [s] => s
  | s :: rest => s ++ separator ++ join separator rest

/-- The pieces of the text between the occurrences of `c`; a text without `c` is one piece. -/
def splitAll (c : Char) (s : String) : List String :=
  (s.toList.splitOn c).map String.ofList

/-! ## Blanks -/

/-- Whether the character has the property `White_Space`. -/
def isBlank (c : Char) : Bool :=
  let n := c.toNat
  (9 ≤ n && n ≤ 13) || n = 0x20 || n = 0x85 || n = 0xA0 || n = 0x1680 ||
    (0x2000 ≤ n && n ≤ 0x200A) || n = 0x2028 || n = 0x2029 || n = 0x202F || n = 0x205F ||
    n = 0x3000

/-- The list without the blanks at its end. -/
def dropEndWhile (p : Char → Bool) (cs : List Char) : List Char :=
  (cs.reverse.dropWhile p).reverse

/-- The text without the blanks at both ends. -/
def trim (s : String) : String :=
  String.ofList (dropEndWhile isBlank (s.toList.dropWhile isBlank))

/-- The text without the blanks at its end. -/
def trimEnd (s : String) : String := String.ofList (dropEndWhile isBlank s.toList)

/-- Splits off the words of `cs`; `word` holds the characters of the current one, last first. -/
def wordsFrom (word : List Char) : List Char → List (List Char)
  | [] => if word.isEmpty then [] else [word.reverse]
  | c :: rest =>
    if isBlank c then
      if word.isEmpty then wordsFrom [] rest else word.reverse :: wordsFrom [] rest
    else wordsFrom (c :: word) rest

/-- The longest pieces of the text without blanks, in order. -/
def words (s : String) : List String := (wordsFrom [] s.toList).map String.ofList

end CsdlAudit.Text
