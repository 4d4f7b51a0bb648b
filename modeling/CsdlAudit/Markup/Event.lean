import CsdlAudit.Markup.Attribute
import CsdlAudit.Markup.Reference

/-!
# Reading markup

A document is read as a list of events: a tag opens or closes an element, or is an element without
content, and text stands between tags. Comments, declarations and literal sections yield nothing,
though one of them between two texts keeps these apart.

Reading stops at the first `Fault`, which has a position in bytes. `Markup.read` is the reading of a
whole document.
-/

namespace CsdlAudit.Markup

/-- **A tag that opens an element.** -/
structure Tag where
  /-- The name of the element. -/
  name : String
  /-- What stands behind the name. -/
  tail : String
deriving DecidableEq, Repr, Inhabited

/-- The name without the part before its first colon. -/
def Tag.localName (t : Tag) : String := Markup.localName t.name

/-- The attributes of a tag. -/
def Tag.attributes (t : Tag) : AttributeReading :=
  readAttributes [] (byteCount t.name.toList) t.tail.toList

/-- **What reading meets in a document.** -/
inductive Event where
  /-- A tag that opens an element. -/
  | opening (tag : Tag)
  /-- An element without content. -/
  | empty (tag : Tag)
  /-- The tag that closes the innermost open element. -/
  | closing
  /-- Text, its references not expanded. -/
  | text (raw : String)
deriving DecidableEq, Repr

/-- The constructs that a document may end within. -/
inductive Construct where
  /-- What follows `<!`. -/
  | bang
  /-- A literal section. -/
  | literal
  /-- A comment. -/
  | comment
  /-- A document type declaration. -/
  | doctype
  /-- A declaration or an instruction between question marks. -/
  | declaration
deriving DecidableEq, Repr

/-- The name of a construct. -/
def Construct.name : Construct → String
  | .bang => "Bang"
  | .literal => "CData"
  | .comment => "Comment"
  | .doctype => "DOCTYPE"
  | .declaration => "XmlDecl"

/-- **Why a document cannot be read.** -/
inductive Fault where
  /-- A construct is not finished. -/
  | unfinished (c : Construct)
  /-- `<!` introduces no construct. -/
  | unknownBang (symbol : Char)
  /-- A document type declaration declares nothing. -/
  | emptyDoctype
  /-- A closing tag does not fit the innermost open element. -/
  | mismatch (expected found : String)
deriving DecidableEq, Repr

/-- The fault in words. -/
def Fault.message : Fault → String
  | .unfinished c => "Unexpected EOF during reading " ++ c.name
  | .unknownBang symbol =>
    "Only Comment (`--`), CDATA (`[CDATA[`) and DOCTYPE (`DOCTYPE`) nodes can start with a '!', " ++
      "but symbol `" ++ symbol.toString ++ "` found"
  | .emptyDoctype => "DOCTYPE declaration must not be empty"
  | .mismatch expected found => "Expecting </" ++ expected ++ "> found </" ++ found ++ ">"

/-- **Where reading stands.** -/
structure Cursor where
  /-- How many bytes lie behind. -/
  offset : Nat
  /-- Whether the next character stands behind a `<`. -/
  inTag : Bool
  /-- The names of the open elements, innermost first. -/
  opened : List String
deriving DecidableEq, Repr

/-- What one step of reading yields, with `size` characters ahead. -/
inductive Step (size : Nat) where
  /-- The document ends. -/
  | done
  /-- Reading stops at a fault with its position. -/
  | stop (fault : Fault) (position : Nat)
  /-- Reading goes on, possibly with an event. -/
  | next (event : Option Event) (cursor : Cursor) (rest : List Char)
      (shorter : rest.length < size)

/-! ## Constructs behind `<!` -/

/-- The construct that the character behind `<!` announces. -/
def bangConstruct? : Char → Option Construct
  | '[' => some .literal
  | '-' => some .comment
  | 'D' | 'd' => some .doctype
  | _ => none

/-- Whether a `>` ends the construct, given the characters between `<!` and it, last first. -/
def endsBang : Construct → (before : List Char) → Bool
  | .literal, before => before.take 2 == [']', ']']
  | .comment, before => before.take 2 == ['-', '-'] && 3 < byteCount before
  | _, before => before.count '<' == before.count '>'

/-- Whether the characters begin with `start` up to the case of ASCII letters. -/
def beginsWithAnyCase (start : String) (cs : List Char) : Bool :=
  (cs.take start.length).map Char.toLower == start.toList.map Char.toLower

/-- What is wrong with the content of a construct, the character behind `<!` included. -/
def bangFault? (c : Construct) (content : List Char) : Option Fault :=
  match c with
  | .literal => if beginsWithAnyCase "[CDATA[" content then none else some (.unfinished c)
  | .comment => if content.take 2 == ['-', '-'] then none else some (.unfinished c)
  | _ =>
    if beginsWithAnyCase "DOCTYPE" content then
      if (content.drop 7).all isSpace then some .emptyDoctype else none
    else some (.unfinished c)

/-- Reads a construct; `cs` stands behind `<!`. -/
def stepBang (cursor : Cursor) (cs : List Char) : Step (cs.length + 1) :=
  match cs with
  | [] => .stop (.unfinished .bang) cursor.offset
  | c :: tail =>
    match bangConstruct? c with
    | none => .stop (.unknownBang (leadByte c)) cursor.offset
    | some construct =>
      match h : cutWhen (endsBang construct) [] (c :: tail) with
      | none => .stop (.unfinished construct) cursor.offset
      | some (content, rest) =>
        let offset := cursor.offset + byteCount content + 2
        match bangFault? construct content with
        | some fault => .stop fault offset
        | none => .next none ⟨offset, false, cursor.opened⟩ rest
            (Nat.lt_succ_of_lt (length_lt_of_cutWhen h))

/-! ## Tags and declarations -/

/-- The rest behind a cut, and how many bytes the cut took. A missing end takes none. -/
def afterCut (cut : List Char × Option (List Char)) : List Char × Nat :=
  match cut.2 with
  | some rest => (rest, byteCount cut.1 + 1)
  | none => ([], byteCount cut.1)

theorem length_afterCut_cutAt {stop : Char} (cs : List Char) :
    (afterCut (cutAt stop cs)).1.length ≤ cs.length := by
  unfold afterCut
  split
  · rename_i h
    exact Nat.le_of_lt (length_lt_of_cutAt h)
  · simp

/-- White space of the ASCII characters, the form feed included. -/
def isAsciiSpace (c : Char) : Bool := isSpace c || c = '\x0c'

/-- The name in a closing tag: white space behind it does not count, unless there is nothing
else. -/
def closingName (content : List Char) : List Char :=
  if content.all isAsciiSpace then content
  else (content.reverse.dropWhile isAsciiSpace).reverse

/-- Reads a closing tag; `cs` stands behind `</`. -/
def stepClosing (cursor : Cursor) (cs : List Char) : Step (cs.length + 1) :=
  let cut := cutAt '>' cs
  let after := afterCut cut
  let offset := cursor.offset + 1 + after.2
  let faultAt := offset - (byteCount cut.1 + 1)
  match cursor.opened with
  | [] => .stop (.mismatch "" (String.ofList cut.1)) faultAt
  | expected :: outer =>
    let found := String.ofList (closingName cut.1)
    if found = expected then
      .next (some .closing) ⟨offset, false, outer⟩ after.1
        (Nat.lt_succ_of_le (length_afterCut_cutAt cs))
    else .stop (.mismatch expected found) faultAt

/-- Reads a declaration or an instruction; `cs` stands behind `<?`. -/
def stepDeclaration (cursor : Cursor) (cs : List Char) : Step (cs.length + 1) :=
  let cut := cutAt '>' cs
  let after := afterCut cut
  let offset := cursor.offset + 1 + after.2
  if 1 < byteCount cut.1 ∧ cut.1.getLast? = some '?' then
    .next none ⟨offset, false, cursor.opened⟩ after.1
      (Nat.lt_succ_of_le (length_afterCut_cutAt cs))
  else .stop (.unfinished .declaration) (offset - (byteCount cut.1 + 1))

/-- The tag with a content. -/
def tagOf (content : List Char) : Tag :=
  ⟨String.ofList (content.takeWhile (fun c => !isSpace c)),
    String.ofList (content.dropWhile (fun c => !isSpace c))⟩

/-- The event of a tag: a content that ends with `/` is an element without content. -/
def tagEvent (content : List Char) : Event :=
  if content.getLast? = some '/' then .empty (tagOf content.dropLast)
  else .opening (tagOf content)

/-- The names of the open elements behind an event. -/
def openedAfter (opened : List String) : Event → List String
  | .opening tag => tag.name :: opened
  | _ => opened

/-- Reads a tag that opens an element; `cs` stands behind `<` and is not empty. A tag without end
takes all that is left, and its bytes are not counted. -/
def stepTag (cursor : Cursor) (cs : List Char) (nonempty : cs ≠ []) : Step cs.length :=
  match h : (cutTag none cs).2 with
  | some rest =>
    let event := tagEvent (cutTag none cs).1
    .next (some event)
      ⟨cursor.offset + byteCount (cutTag none cs).1 + 1, false, openedAfter cursor.opened event⟩
      rest (length_lt_of_cutTag h)
  | none =>
    let event := tagEvent cs
    .next (some event) ⟨cursor.offset, false, openedAfter cursor.opened event⟩ []
      (List.length_pos_iff.mpr nonempty)

/-- Reads what stands behind `<`. -/
def stepInTag (cursor : Cursor) (cs : List Char) : Step cs.length :=
  match cs with
  | [] => .done
  | '!' :: rest => stepBang cursor rest
  | '/' :: rest => stepClosing cursor rest
  | '?' :: rest => stepDeclaration cursor rest
  | c :: rest => stepTag cursor (c :: rest) (List.cons_ne_nil c rest)

/-! ## Text and whole documents -/

/-- Reads what stands between tags, up to the next `<`. -/
def stepText (cursor : Cursor) (cs : List Char) : Step cs.length :=
  match h : cs.dropWhile isSpace with
  | [] => .done
  | c :: rest =>
    have bound : rest.length < cs.length := by
      have := length_dropWhile_le (p := isSpace) cs
      rw [h] at this
      simp only [List.length_cons] at this
      omega
    let start := cursor.offset + byteCount (cs.takeWhile isSpace)
    if c = '<' then .next none ⟨start + 1, true, cursor.opened⟩ rest bound
    else
      let cut := cutAt '<' rest
      .next (some (.text (String.ofList (dropSpaceAtEnd (c :: cut.1)))))
        ⟨start + c.utf8Size + (afterCut cut).2, true, cursor.opened⟩ (afterCut cut).1
        (Nat.lt_of_le_of_lt (length_afterCut_cutAt rest) bound)

/-- One step of reading. -/
def step (cursor : Cursor) (cs : List Char) : Step cs.length :=
  if cursor.inTag then stepInTag cursor cs else stepText cursor cs

/-- **The events of a document**, up to the first fault. -/
structure Reading where
  /-- The events, in order. -/
  events : List Event
  /-- Why reading stopped before the end, and where. -/
  fault : Option (Fault × Nat)
deriving DecidableEq, Repr

/-- A reading with one more event in front. -/
def Reading.cons (e : Option Event) (r : Reading) : Reading :=
  ⟨e.toList ++ r.events, r.fault⟩

/-- Reads on from a cursor. -/
def readFrom (cursor : Cursor) (cs : List Char) : Reading :=
  match step cursor cs with
  | .done => ⟨[], none⟩
  | .stop fault position => ⟨[], some (fault, position)⟩
  | .next event cursor' rest _shorter => (readFrom cursor' rest).cons event
termination_by cs.length

/-- The characters without a byte order mark in front. -/
def dropByteOrderMark : List Char → List Char
  | c :: cs => if c.toNat = 0xFEFF then cs else c :: cs
  | [] => []

/-- **The reading of a document.** A byte order mark in front is not part of it. -/
def read (document : String) : Reading :=
  readFrom ⟨0, false, []⟩ (dropByteOrderMark document.toList)

end CsdlAudit.Markup
