/-!
# File patterns

A pattern picks files by name. `?` stands for one character, `*` for any run of characters, `[..]`
and `[!..]` for one character in or out of a set, and `**` as a whole part of a path for any number
of parts. `Glob.ofText` reads a pattern and `Glob.fits` applies it.
-/

namespace CsdlAudit

/-- The members of a set of characters. -/
inductive CharSet where
  /-- One character. -/
  | single (c : Char)
  /-- All characters from one to another. -/
  | range (first last : Char)
deriving DecidableEq, Repr

/-- Whether a character is among the members. -/
def CharSet.has (c : Char) : CharSet → Bool
  | .single d => c = d
  | .range first last => first ≤ c && c ≤ last

/-- **A part of a pattern.** -/
inductive GlobToken where
  /-- The character itself. -/
  | literal (c : Char)
  /-- Any one character. -/
  | anyChar
  /-- Any run of characters. -/
  | anyRun
  /-- Any number of whole parts of a path. -/
  | anyParts
  /-- One character of the sets. -/
  | within (sets : List CharSet)
  /-- One character of none of the sets. -/
  | except (sets : List CharSet)
deriving DecidableEq, Repr

/-- What is wrong with a pattern. -/
inductive GlobProblem where
  /-- There are three stars or more in a row. -/
  | manyStars
  /-- Two stars are not a whole part of a path. -/
  | partialStars
  /-- A bracket opens no set. -/
  | badSet
deriving DecidableEq, Repr

/-- **Why a pattern cannot be read.** -/
structure GlobFault where
  /-- The index of the character at fault. -/
  position : Nat
  /-- What is wrong. -/
  problem : GlobProblem
deriving DecidableEq, Repr

/-- The fault in words. -/
def GlobFault.message (f : GlobFault) : String :=
  "Pattern syntax error near position " ++ toString f.position ++ ": " ++
    match f.problem with
    | .manyStars => "wildcards are either regular `*` or recursive `**`"
    | .partialStars => "recursive wildcards must form a single path component"
    | .badSet => "invalid range pattern"

/-- The members that a set lists. -/
def charSets : List Char → List CharSet
  | first :: '-' :: last :: rest => .range first last :: charSets rest
  | c :: rest => .single c :: charSets rest
  | [] => []

/-- Cuts at the bracket that closes a set; the first character of the set is never that. -/
def cutSet : List Char → Option (List Char × List Char)
  | [] => none
  | first :: rest =>
    match rest.dropWhile (· != ']') with
    | [] => none
    | _ :: after => some (first :: rest.takeWhile (· != ']'), after)

/-- What a bracket opens: a token, and what follows it. -/
def readSet : List Char → Option (GlobToken × List Char)
  | '!' :: cs => (cutSet cs).map fun (set, after) => (.except (charSets set), after)
  | cs => (cutSet cs).map fun (set, after) => (.within (charSets set), after)

/-- **A pattern.** -/
structure Glob where
  /-- Its parts. -/
  tokens : List GlobToken
deriving DecidableEq, Repr

namespace Glob

/-- Reads on at `index`; `atStart` tells whether a part of a path starts here. The step count only
bounds the reading, and each step takes at least one character. -/
def readFrom : (steps index : Nat) → (atStart : Bool) → List Char →
    Except GlobFault (List GlobToken)
  | 0, _, _, _ => .ok []
  | _ + 1, _, _, [] => .ok []
  | steps + 1, index, atStart, c :: cs =>
    match c with
    | '?' => (readFrom steps (index + 1) false cs).map (.anyChar :: ·)
    | '*' =>
      let stars := 1 + (cs.takeWhile (· == '*')).length
      let after := cs.dropWhile (· == '*')
      if 2 < stars then .error ⟨index + 2, .manyStars⟩
      else if stars = 2 then
        if atStart then
          match after with
          | [] => .ok [.anyParts]
          | '/' :: rest => (readFrom steps (index + 3) true rest).map (.anyParts :: ·)
          | _ => .error ⟨index + 2, .partialStars⟩
        else .error ⟨index - 1, .partialStars⟩
      else (readFrom steps (index + 1) false after).map (.anyRun :: ·)
    | '[' =>
      match readSet cs with
      | some (token, after) =>
        (readFrom steps (index + 1 + (cs.length - after.length)) false after).map (token :: ·)
      | none => .error ⟨index, .badSet⟩
    | c => (readFrom steps (index + 1) (c == '/') cs).map (.literal c :: ·)

/-- **The pattern that a text writes.** -/
def ofText (s : String) : Except GlobFault Glob :=
  (readFrom s.toList.length 0 true s.toList).map Glob.mk

/-- What may be left when any run of characters is taken. -/
def afterRuns : List Char → List (List Char)
  | [] => [[]]
  | c :: cs => (c :: cs) :: afterRuns cs

/-- What may be left when whole parts of a path are taken, at least one. -/
def afterParts : List Char → List (List Char)
  | [] => [[]]
  | c :: cs => if c = '/' then cs :: afterParts cs else afterParts cs

/-- Whether the tokens fit the whole of a name. -/
def fitsTokens : List GlobToken → List Char → Bool
  | [], cs => cs.isEmpty
  | .anyRun :: ts, cs => (afterRuns cs).any (fitsTokens ts)
  | .anyParts :: ts, cs => (cs :: afterParts cs).any (fitsTokens ts)
  | .literal d :: ts, cs =>
    match cs with
    | [] => false
    | c :: rest => c = d && fitsTokens ts rest
  | .anyChar :: ts, cs =>
    match cs with
    | [] => false
    | _ :: rest => fitsTokens ts rest
  | .within sets :: ts, cs =>
    match cs with
    | [] => false
    | c :: rest => sets.any (CharSet.has c) && fitsTokens ts rest
  | .except sets :: ts, cs =>
    match cs with
    | [] => false
    | c :: rest => !sets.any (CharSet.has c) && fitsTokens ts rest

/-- **Whether a pattern fits a name.** -/
def fits (g : Glob) (name : String) : Bool := fitsTokens g.tokens name.toList

end Glob

end CsdlAudit
