import CsdlAudit.Markup.Cut

/-!
# Attributes

The attributes of a tag stand behind its name, each a key, `=` and a value in quotes. Reading stops
at the first one that is not written so; what stands before it is read.
-/

namespace CsdlAudit.Markup

/-- The part of a name behind its first colon, the whole name if it has none. -/
def localName (name : String) : String :=
  match (cutAt ':' name.toList).2 with
  | some rest => String.ofList rest
  | none => name

/-- **An attribute as it is written.** -/
structure Attribute where
  /-- The key. -/
  key : String
  /-- What stands between the quotes. -/
  raw : String
deriving DecidableEq, Repr, Inhabited

/-- The key without the part before its first colon. -/
def Attribute.localKey (a : Attribute) : String := localName a.key

/-- **Why an attribute cannot be read.** Positions count bytes from the start of the tag's name. -/
inductive AttributeFault where
  /-- A key has no `=`. -/
  | noEquals (position : Nat)
  /-- A key stands twice. -/
  | duplicate (position earlier : Nat)
  /-- Nothing follows an `=`. -/
  | noValue (position : Nat)
  /-- A value is not in quotes. -/
  | unquoted (position : Nat)
  /-- The quote that opens a value is not closed. -/
  | unclosed (position : Nat) (quote : Char)
deriving DecidableEq, Repr

/-- The fault in words. -/
def AttributeFault.message : AttributeFault → String
  | .noEquals p =>
    "position " ++ toString p ++ ": attribute key must be directly followed by `=` or space"
  | .duplicate p earlier =>
    "position " ++ toString p ++ ": duplicated attribute, previous declaration at position " ++
      toString earlier
  | .noValue p => "position " ++ toString p ++ ": `=` must be followed by an attribute value"
  | .unquoted p =>
    "position " ++ toString p ++ ": attribute value must be enclosed in `\"` or `'`"
  | .unclosed p quote =>
    "position " ++ toString p ++ ": missing closing quote `" ++ quote.toString ++
      "` in attribute value"

/-- **The attributes of a tag**, up to the first that cannot be read. -/
structure AttributeReading where
  /-- The attributes read, in order. -/
  attributes : List Attribute
  /-- Why the next one cannot be read. -/
  fault : Option AttributeFault
deriving DecidableEq, Repr

/-- A reading with one more attribute in front. -/
def AttributeReading.cons (a : Attribute) (r : AttributeReading) : AttributeReading :=
  ⟨a :: r.attributes, r.fault⟩

/-- A reading that ends at a fault. -/
def AttributeReading.fail (f : AttributeFault) : AttributeReading := ⟨[], some f⟩

/-- What follows white space, with its position. -/
def skipSpace (position : Nat) (cs : List Char) : Nat × List Char :=
  (position + byteCount (cs.takeWhile isSpace), cs.dropWhile isSpace)

/-- The attributes in `cs`, which stands at `position`; `seen` are the keys before it. The first
character of a key is taken whatever it is, so that a key is never empty. -/
def readAttributes (seen : List (String × Nat)) (position : Nat) (cs : List Char) :
    AttributeReading :=
  match hkey : (skipSpace position cs).2 with
  | [] => ⟨[], none⟩
  | first :: afterFirst =>
    let keyAt := (skipSpace position cs).1
    let keyTail := afterFirst.takeWhile (fun c => !(c = '=' || isSpace c))
    let key := String.ofList (first :: keyTail)
    let keyEnd := keyAt + byteCount (first :: keyTail)
    let equalsAt := (skipSpace keyEnd (afterFirst.drop keyTail.length)).1
    match heq : (skipSpace keyEnd (afterFirst.drop keyTail.length)).2 with
    | '=' :: afterEquals =>
      match seen.find? (fun k => k.1 == key) with
      | some earlier => .fail (.duplicate keyAt earlier.2)
      | none =>
        let valueAt := (skipSpace (equalsAt + 1) afterEquals).1
        match hval : (skipSpace (equalsAt + 1) afterEquals).2 with
        | [] => .fail (.noValue valueAt)
        | q :: afterQuote =>
          if q = '"' ∨ q = '\'' then
            let raw := (cutAt q afterQuote).1
            match hcut : (cutAt q afterQuote).2 with
            | none => .fail (.unclosed (valueAt + 1 + byteCount afterQuote) q)
            | some rest =>
              have : rest.length < cs.length := by
                have h1 := length_lt_of_cutAt hcut
                have h2 : afterQuote.length < afterEquals.length := by
                  have := length_dropWhile_le (p := isSpace) afterEquals
                  simp only [skipSpace] at hval
                  rw [hval] at this
                  simp only [List.length_cons] at this
                  omega
                have h3 : afterEquals.length < afterFirst.length := by
                  have := length_dropWhile_le (p := isSpace) (afterFirst.drop keyTail.length)
                  simp only [skipSpace] at heq
                  rw [heq] at this
                  simp only [List.length_drop, List.length_cons] at this
                  omega
                have h4 : afterFirst.length < cs.length := by
                  have := length_dropWhile_le (p := isSpace) cs
                  simp only [skipSpace] at hkey
                  rw [hkey] at this
                  simp only [List.length_cons] at this
                  omega
                omega
              (readAttributes (seen ++ [(key, keyAt)]) (valueAt + 1 + byteCount raw + 1) rest).cons
                ⟨key, String.ofList raw⟩
          else .fail (.unquoted valueAt)
    | _ => .fail (.noEquals equalsAt)
termination_by cs.length

end CsdlAudit.Markup
