import CsdlAudit.Toml.Text

/-!
# Tokens of a settings file

A settings file is a sequence of tokens: words of letters, digits and a few marks, texts between
quotes, single marks, and the white space between them. What a word means depends on where it
stands, so a word is kept as it is written.
-/

namespace CsdlAudit.Toml

/-- **A token.** -/
inductive Token where
  /-- Letters, digits, `+`, `-`, `_` and `:` in a row. -/
  | word (cs : List Char)
  /-- A text between quotes, in a block or on one line. -/
  | text (block : Bool) (s : String)
  /-- A `.`. -/
  | dot
  /-- A `=`. -/
  | equals
  /-- A `,`. -/
  | comma
  /-- A `[`. -/
  | openList
  /-- A `]`. -/
  | closeList
  /-- A brace that opens a table. -/
  | openTable
  /-- A brace that closes a table. -/
  | closeTable
  /-- A space. -/
  | space
  /-- A tab. -/
  | tab
  /-- A `#` and what follows it in the line. -/
  | comment
  /-- The end of a line. -/
  | lineBreak
deriving DecidableEq, Repr

/-- Whether the token separates others in a line. -/
def Token.isGap : Token → Bool
  | .space | .tab | .comment => true
  | _ => false

/-- A character of a word. -/
def isWordChar (c : Char) : Bool :=
  c.isAlphanum || c == '+' || c == '-' || c == '_' || c == ':'

/-- The token that is one character. -/
def mark? (c : Char) : Option Token :=
  if c = ' ' then some .space
  else if c = '\t' then some .tab
  else if c = '\n' then some .lineBreak
  else if c = '.' then some .dot
  else if c = '=' then some .equals
  else if c = ',' then some .comma
  else if c = '[' then some .openList
  else if c = ']' then some .closeList
  else if c = '\x7b' then some .openTable
  else if c = '\x7d' then some .closeTable
  else none

/-- The token that starts with a character, and what stands behind it. -/
def nextToken? (c : Char) (cs : List Char) : Option (Token × List Char) :=
  match mark? c with
  | some t => some (t, cs)
  | none =>
    if c = '#' then
      if (cs.takeWhile (· != '\n')).all isPlain then some (.comment, cs.dropWhile (· != '\n'))
      else none
    else if c = '"' ∨ c = '\'' then
      (readText? c cs).map (fun r => (.text r.1 r.2.1, r.2.2))
    else if isWordChar c then some (.word (c :: cs.takeWhile isWordChar), cs.dropWhile isWordChar)
    else none

/-- **The tokens of a text**, unless a character starts none. -/
def tokens? (cs : List Char) : Option (List Token) :=
  match cs with
  | [] => some []
  | c :: cs =>
    match nextToken? c cs with
    | none => none
    | some (t, rest) =>
      if _h : rest.length < cs.length + 1 then (tokens? rest).map (t :: ·) else none
termination_by cs.length

end CsdlAudit.Toml
