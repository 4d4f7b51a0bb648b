import CsdlAudit.Markup.Cut
import CsdlAudit.Natural
import CsdlAudit.Text.Quoted

/-!
# Character references

A text in markup may name a character between `&` and `;`: five names, and numbers in decimal or
hexadecimal digits. `expand` puts the characters in place of their references and refuses a text
with any other.
-/

namespace CsdlAudit.Markup

/-- **Why a text with references cannot be expanded.** Positions count bytes from the start of the
text. -/
inductive ReferenceFault where
  /-- The reference that starts at `start` has no end; the text ends at `stop`. -/
  | unterminated (start stop : Nat)
  /-- The reference from `start` to `stop` stands for the null character. -/
  | null (start stop : Nat)
  /-- The name between `start` and `stop` is unknown. -/
  | unknownName (start stop : Nat) (name : String)
  /-- More than seven decimal digits. -/
  | longDecimal
  /-- More than six hexadecimal digits. -/
  | longHexadecimal
  /-- A character that is no decimal digit. -/
  | badDecimal (c : Char)
  /-- A character that is no hexadecimal digit. -/
  | badHexadecimal (c : Char)
  /-- A number that is no character's. -/
  | noCharacter (n : Nat)
deriving DecidableEq, Repr

/-- A range of positions. -/
def rangeText (start stop : Nat) : String := toString start ++ ".." ++ toString stop

/-- The fault in words. -/
def ReferenceFault.message : ReferenceFault → String
  | .unterminated start stop =>
    "Error while escaping character at range " ++ rangeText start stop ++
      ": Cannot find ';' after '&'"
  | .null start stop =>
    "Error while escaping character at range " ++ rangeText start stop ++
      ": Null character entity not allowed"
  | .unknownName start stop name =>
    "Error while escaping character at range " ++ rangeText start stop ++
      ": Unrecognized escape symbol: " ++ Text.quoted name
  | .longDecimal => "Cannot convert decimal to utf8"
  | .longHexadecimal => "Cannot convert hexadecimal to utf8"
  | .badDecimal c => "'" ++ c.toString ++ "' is not a valid decimal character"
  | .badHexadecimal c => "'" ++ c.toString ++ "' is not a valid hexadecimal character"
  | .noCharacter n => "'" ++ toString n ++ "' is not a valid codepoint"

/-- The number that digits write in a base, read on from `value`. -/
def numberFrom (bad : Char → ReferenceFault) (base value : Nat) :
    List Char → Except ReferenceFault Nat
  | [] => .ok value
  | c :: cs =>
    match Text.digitValue? base c with
    | some d => numberFrom bad base (base * value + d) cs
    | none => .error (bad (leadByte c))

/-- The number that a reference writes behind its `#`. -/
def referenceNumber : List Char → Except ReferenceFault Nat
  | 'x' :: cs =>
    if 6 < byteCount cs then .error .longHexadecimal
    else numberFrom .badHexadecimal 16 0 cs
  | cs =>
    if 7 < byteCount cs then .error .longDecimal
    else numberFrom .badDecimal 10 0 cs

/-- The character with a number. -/
def characterOf (start stop n : Nat) : Except ReferenceFault Char :=
  if n = 0 then .error (.null start stop)
  else if h : n.isValidChar then .ok (Char.ofNatAux n h)
  else .error (.noCharacter n)

/-- The characters with names. -/
def namedCharacters : List (String × Char) :=
  [("lt", '<'), ("gt", '>'), ("amp", '&'), ("apos", '\''), ("quot", '"')]

/-- The character that a reference stands for: `content` stands between its `&` at `start` and its
`;` at `stop`. -/
def referencedCharacter (start stop : Nat) : (content : List Char) → Except ReferenceFault Char
  | '#' :: digits => do characterOf start stop (← referenceNumber digits)
  | content =>
    match namedCharacters.find? (fun n => n.1 == String.ofList content) with
    | some n => .ok n.2
    | none => .error (.unknownName (start + 1) stop (String.ofList content))

/-- Puts characters in place of the references in what stands at `position` of a text of `total`
bytes. -/
def expandFrom (total position : Nat) (cs : List Char) : Except ReferenceFault (List Char) :=
  match cs with
  | [] => .ok []
  | c :: cs =>
    if c = '&' then
      let content := cs.takeWhile (fun d => d != '&' && d != ';')
      let stop := position + 1 + byteCount content
      match h : cs.dropWhile (fun d => d != '&' && d != ';') with
      | ';' :: rest =>
        have : rest.length < cs.length := by
          have := length_dropWhile_le (p := fun d => d != '&' && d != ';') cs
          rw [h] at this
          simp only [List.length_cons] at this
          omega
        do
          let d ← referencedCharacter position stop content
          return d :: (← expandFrom total (stop + 1) rest)
      | _ => .error (.unterminated position total)
    else do return c :: (← expandFrom total (position + c.utf8Size) cs)
termination_by cs.length
decreasing_by all_goals simp only [List.length_cons]; omega

/-- **The text with characters in place of their references.** -/
def expand (s : String) : Except ReferenceFault String :=
  (expandFrom (byteCount s.toList) 0 s.toList).map String.ofList

end CsdlAudit.Markup
