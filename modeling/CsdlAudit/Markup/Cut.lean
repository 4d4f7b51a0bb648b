import CsdlAudit.Natural

/-!
# Cutting markup

The reader of markup takes its text apart at single characters. Each function here returns what
stands before the character and what follows it, and a lemma says that what follows is shorter, so
that reading on ends.

Positions in markup count bytes of the UTF-8 form.
-/

namespace CsdlAudit.Markup

/-- White space between pieces of markup. -/
def isSpace (c : Char) : Bool := c = ' ' || c = '\t' || c = '\n' || c = '\r'

/-- How many bytes the characters take. -/
def byteCount (cs : List Char) : Nat := total (cs.map Char.utf8Size)

/-- The first byte of a character, as the character with that number. -/
def leadByte (c : Char) : Char :=
  match String.utf8EncodeChar c with
  | b :: _ => Char.ofNat b.toNat
  | [] => c

/-- The characters without the white space at their end. -/
def dropSpaceAtEnd (cs : List Char) : List Char := (cs.reverse.dropWhile isSpace).reverse

/-- **Cuts at the first `stop`**: what stands before it, and what follows it unless there is
none. -/
def cutAt (stop : Char) : List Char → List Char × Option (List Char)
  | [] => ([], none)
  | c :: cs =>
    if c = stop then ([], some cs)
    else ((c :: (cutAt stop cs).1), (cutAt stop cs).2)

theorem length_lt_of_cutAt {stop : Char} {cs rest : List Char}
    (h : (cutAt stop cs).2 = some rest) : rest.length < cs.length := by
  induction cs with
  | nil => simp [cutAt] at h
  | cons c cs ih =>
    unfold cutAt at h
    split at h
    · simp only [Option.some.injEq] at h
      subst h
      simp
    · have := ih h
      simp only [List.length_cons]
      omega

/-- **Cuts a tag at the `>` that ends it**: the first one outside of quotes. `inside` is the open
quote. -/
def cutTag (inside : Option Char) : List Char → List Char × Option (List Char)
  | [] => ([], none)
  | c :: cs =>
    if inside = none ∧ c = '>' then ([], some cs)
    else
      let inside' :=
        match inside with
        | none => if c = '"' ∨ c = '\'' then some c else none
        | some q => if c = q then none else some q
      ((c :: (cutTag inside' cs).1), (cutTag inside' cs).2)

theorem length_lt_of_cutTag {inside : Option Char} {cs rest : List Char}
    (h : (cutTag inside cs).2 = some rest) : rest.length < cs.length := by
  induction cs generalizing inside with
  | nil => simp [cutTag] at h
  | cons c cs ih =>
    unfold cutTag at h
    split at h
    · simp only [Option.some.injEq] at h
      subst h
      simp
    · have := ih h
      simp only [List.length_cons]
      omega

/-- **Cuts at the first `>` that `ends` accepts**, given the characters before it, last first. -/
def cutWhen (ends : List Char → Bool) (before : List Char) :
    List Char → Option (List Char × List Char)
  | [] => none
  | c :: cs =>
    if c = '>' ∧ ends before = true then some (before.reverse, cs)
    else cutWhen ends (c :: before) cs

theorem length_lt_of_cutWhen {ends : List Char → Bool} {before cs content rest : List Char}
    (h : cutWhen ends before cs = some (content, rest)) : rest.length < cs.length := by
  induction cs generalizing before with
  | nil => simp [cutWhen] at h
  | cons c cs ih =>
    unfold cutWhen at h
    split at h
    · simp only [Option.some.injEq, Prod.mk.injEq] at h
      rw [← h.2]
      simp
    · have := ih h
      simp only [List.length_cons]
      omega

theorem length_dropWhile_le {p : Char → Bool} (cs : List Char) :
    (cs.dropWhile p).length ≤ cs.length := by
  induction cs with
  | nil => simp
  | cons c cs ih =>
    simp only [List.dropWhile_cons]
    split
    · simp only [List.length_cons]
      omega
    · simp

end CsdlAudit.Markup
