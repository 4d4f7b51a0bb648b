import CsdlAudit.Natural

/-!
# Texts between quotes

A text of a settings file stands between quotes in one of four ways. Between double quotes a
backslash starts a name for a character, between single quotes every character stands for itself.
Three quotes in place of one make a block: it may hold line breaks, and a line break right behind
the opening quotes does not belong to the text.

`writeText` takes the first way that needs no backslash, and escapes only where none does.
`readText?` reads all four.
-/

namespace CsdlAudit.Toml

/-- **How a text is quoted.** -/
structure Quoting where
  /-- The quote is single, so that every character stands for itself. -/
  literal : Bool
  /-- Three quotes stand in place of one. -/
  block : Bool
deriving DecidableEq, Repr

/-- White space inside of a line. -/
def isGap (c : Char) : Bool := c == ' ' || c == '\t'

/-- Control characters that stand in no text unless they are escaped. -/
def isControl (c : Char) : Bool :=
  (c.toNat < 0x20 && c != '\t' && c != '\n') || c.toNat == 0x7F

/-- Characters that may stand in a line. -/
def isPlain (c : Char) : Bool := !isControl c && c != '\n'

/-- The quote of a way to quote. -/
def Quoting.mark (q : Quoting) : Char := if q.literal then '\'' else '"'

/-! ## Writing -/

/-- How many `c` stand in a row at most; `run` of them stand right before. -/
def longestRun (c : Char) : (run : Nat) → List Char → Nat
  | run, [] => run
  | run, d :: ds => if d = c then longestRun c (run + 1) ds else max run (longestRun c 0 ds)

/-- **The way in which a text is written.** -/
def quotingOf (cs : List Char) : Quoting :=
  let coded := cs.any isControl
  let escaped := cs.contains '\\'
  let broken := cs.contains '\n'
  if !coded && !escaped && !broken && longestRun '"' 0 cs == 0 then ⟨false, false⟩
  else if !coded && !broken && longestRun '\'' 0 cs == 0 then ⟨true, false⟩
  else if !coded && !escaped && longestRun '"' 0 cs ≤ 2 then ⟨false, true⟩
  else if !coded && longestRun '\'' 0 cs ≤ 2 then ⟨true, true⟩
  else ⟨false, broken⟩

/-- An upper-case hexadecimal digit. -/
def upperHexDigit (n : Nat) : Char :=
  if n < 10 then Char.ofNat (0x30 + n) else Char.ofNat (0x41 + (n - 10))

/-- A character other than a quote as it is written between double quotes. -/
def escapedChar (block : Bool) (c : Char) : List Char :=
  if c.toNat = 0x08 then ['\\', 'b']
  else if c = '\t' then ['\\', 't']
  else if c = '\n' then if block then ['\n'] else ['\\', 'n']
  else if c.toNat = 0x0C then ['\\', 'f']
  else if c = '\r' then ['\\', 'r']
  else if c = '\\' then ['\\', '\\']
  else if isControl c then
    ['\\', 'u', '0', '0', upperHexDigit (c.toNat / 16), upperHexDigit (c.toNat % 16)]
  else [c]

/-- A text as it is written between double quotes. In a block two quotes may stand in a row, and
`run` of them stand right before. -/
def escapedText (block : Bool) : (run : Nat) → List Char → List Char
  | _, [] => []
  | run, c :: cs =>
    if c = '"' then
      if run < (if block then 2 else 0) then '"' :: escapedText block (run + 1) cs
      else '\\' :: '"' :: escapedText block 0 cs
    else escapedChar block c ++ escapedText block 0 cs

/-- A text between quotes of one way. -/
def writeTextAs (q : Quoting) (cs : List Char) : List Char :=
  let marks := List.replicate (if q.block then 3 else 1) q.mark
  let opening := if q.block && cs.contains '\n' then ['\n'] else []
  marks ++ opening ++ (if q.literal then cs else escapedText q.block 0 cs) ++ marks

/-- **A text between quotes.** -/
def writeText (s : String) : List Char := writeTextAs (quotingOf s.toList) s.toList

/-! ## Reading -/

/-- A character in front of what has been read. -/
def push? : Option Char → Option (List Char × List Char) → Option (List Char × List Char)
  | some c, some (cs, rest) => some (c :: cs, rest)
  | _, _ => none

/-- The character that a letter behind a backslash stands for. -/
def letterEscape? (c : Char) : Option Char :=
  if c = 'b' then some (Char.ofNat 0x08)
  else if c = 't' then some '\t'
  else if c = 'n' then some '\n'
  else if c = 'f' then some (Char.ofNat 0x0C)
  else if c = 'r' then some '\r'
  else if c = '"' then some '"'
  else if c = '\\' then some '\\'
  else none

/-- The character whose number hexadecimal digits write. -/
def codeEscape? (digits : List Char) : Option Char :=
  (Text.natural? 16 digits).bind (fun n =>
    if h : n.isValidChar then some (Char.ofNatAux n h) else none)

/-- What a quote in a block does. -/
inductive BlockQuote where
  /-- It is the first of the three that end the block. -/
  | ends (rest : List Char)
  /-- It belongs to the text. -/
  | inside
  /-- It has too many behind it. -/
  | refused

/-- What a quote in a block does, given what follows it: the block ends with the last three of at
most five. -/
def blockQuote (mark : Char) : List Char → BlockQuote
  | a :: b :: rest =>
    if a = mark ∧ b = mark then
      if List.replicate 3 mark <+: rest then .refused
      else if rest.head? = some mark then .inside
      else .ends rest
    else .inside
  | _ => .inside

/-- Whether only white space stands before the end of the line. -/
def endsLine (cs : List Char) : Bool := (cs.dropWhile isGap).head? == some '\n'

/-- Reads a text up to its closing double quotes. Behind a backslash at the end of a line, white
space is skipped. -/
def readBasic (block : Bool) : (skipping : Bool) → List Char → Option (List Char × List Char)
  | _, [] => none
  | skipping, c :: cs =>
    if skipping && (isGap c || c == '\n') then readBasic block true cs
    else if c = '"' then
      if block then
        match blockQuote '"' cs with
        | .ends rest => some ([], rest)
        | .inside => push? (some c) (readBasic block false cs)
        | .refused => none
      else some ([], cs)
    else if c = '\\' then
      if block && endsLine cs then readBasic block true cs
      else
        match cs with
        | 'u' :: a :: b :: d :: e :: rest =>
          push? (codeEscape? [a, b, d, e]) (readBasic block false rest)
        | 'U' :: a :: b :: d :: e :: a' :: b' :: d' :: e' :: rest =>
          push? (codeEscape? [a, b, d, e, a', b', d', e']) (readBasic block false rest)
        | e :: rest => push? (letterEscape? e) (readBasic block false rest)
        | [] => none
    else if isPlain c || (block && c == '\n') then push? (some c) (readBasic block false cs)
    else none

/-- Reads a text up to its closing single quotes. -/
def readLiteral (block : Bool) : List Char → Option (List Char × List Char)
  | [] => none
  | c :: cs =>
    if c = '\'' then
      if block then
        match blockQuote '\'' cs with
        | .ends rest => some ([], rest)
        | .inside => push? (some c) (readLiteral block cs)
        | .refused => none
      else some ([], cs)
    else if isPlain c || (block && c == '\n') then push? (some c) (readLiteral block cs)
    else none

/-- Reads a text behind its opening quotes. -/
def readTextAs (q : Quoting) (cs : List Char) : Option (List Char × List Char) :=
  let cs := if q.block && cs.head? == some '\n' then cs.drop 1 else cs
  if q.literal then readLiteral q.block cs else readBasic q.block false cs

/-- The way in which the text behind a quote is quoted. -/
def openQuoting (mark : Char) (cs : List Char) : Quoting :=
  ⟨mark == '\'', decide (List.replicate 2 mark <+: cs)⟩

/-- **Reads a text between quotes**, given its first quote and what follows it: whether it is a
block, the text and what stands behind it. -/
def readText? (mark : Char) (cs : List Char) : Option (Bool × String × List Char) :=
  let q := openQuoting mark cs
  (readTextAs q (if q.block then cs.drop 2 else cs)).map
    (fun r => (q.block, String.ofList r.1, r.2))

end CsdlAudit.Toml
