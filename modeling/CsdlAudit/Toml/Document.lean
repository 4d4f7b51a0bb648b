import CsdlAudit.Toml.Scalar
import CsdlAudit.Toml.Table
import CsdlAudit.Toml.Token

/-!
# Settings files

A settings file is read in three steps. Brackets that belong together make the tokens a list of
nodes, which ends of lines divide into statements; line breaks inside of brackets divide nothing.
Each statement opens a table or gives a value to a path. The statements in order grow the table that
the file stands for.
-/

namespace CsdlAudit.Toml

/-! ## Brackets -/

/-- **A token or a pair of brackets.** -/
inductive Node where
  /-- A token that is no bracket. -/
  | token (t : Token)
  /-- Square brackets. -/
  | list (inner : List Node)
  /-- Braces. -/
  | table (inner : List Node)
deriving Inhabited

/-- How many brackets may be open at a time. -/
def nesting : Nat := 79

/-- Pairs the brackets. `outside` are the open brackets, nearest first, each with what stands before
it, and `here` is what stands behind the nearest one, last first. -/
def pair (outside : List (Token × List Node)) (here : List Node) :
    List Token → Option (List Node)
  | [] => if outside.isEmpty then some here.reverse else none
  | t :: ts =>
    match t, outside with
    | .openList, _ | .openTable, _ =>
      if outside.length < nesting then pair ((t, here) :: outside) [] ts else none
    | .closeList, (.openList, before) :: outside =>
      pair outside (.list here.reverse :: before) ts
    | .closeTable, (.openTable, before) :: outside =>
      pair outside (.table here.reverse :: before) ts
    | .closeList, _ | .closeTable, _ => none
    | _, _ => pair outside (.token t :: here) ts

/-! ## Values -/

/-- **A token or a value that stood in brackets.** -/
inductive Piece where
  /-- A token. -/
  | token (t : Token)
  /-- A value. -/
  | value (v : Value)
deriving Inhabited

/-- Whether the piece separates others in a line. -/
def Piece.isGap : Piece → Bool
  | .token t => t.isGap
  | .value _ => false

/-- Whether the piece separates the items of a list. -/
def Piece.isWideGap (p : Piece) : Bool :=
  match p with
  | .token .lineBreak => true
  | _ => p.isGap

/-- Whether the piece is a token. -/
def Piece.isToken (t : Token) : Piece → Bool
  | .token u => t == u
  | .value _ => false

/-- What is left without what separates it at either end. -/
def strip {α : Type} (gap : α → Bool) (xs : List α) : List α :=
  ((xs.dropWhile gap).reverse.dropWhile gap).reverse

/-- The characters that pieces of a value without quotes write. -/
def scalarChars? : List Piece → Option (List Char)
  | [] => some []
  | .token (.word cs) :: rest => (scalarChars? rest).map (cs ++ ·)
  | .token .dot :: rest => (scalarChars? rest).map ('.' :: ·)
  | .token .space :: rest => (scalarChars? rest).map (' ' :: ·)
  | _ => none

/-- The value that pieces write. -/
def value? : List Piece → Option Value
  | [.value v] => some v
  | [.token (.text _ s)] => some (.text s)
  | ps => (scalarChars? ps).bind scalar?

/-- The name that pieces write. -/
def name? : List Piece → Option String
  | [.token (.word cs)] =>
    if cs.all (fun c => c != '+' && c != ':') then some (String.ofList cs) else none
  | [.token (.text false s)] => some s
  | _ => none

/-- **The path that pieces write**: names with points between them. -/
def path? (ps : List Piece) : Option (List String) :=
  (ps.splitOnP (Piece.isToken .dot)).mapM (fun p => name? (strip Piece.isGap p))

/-- A path, the first `=` and a value. -/
def assignment? (ps : List Piece) : Option (List String × Value) :=
  match ps.dropWhile (fun p => !p.isToken .equals) with
  | [] => none
  | _ :: after => do
    let path ← path? (ps.takeWhile (fun p => !p.isToken .equals))
    return (path, ← value? (strip Piece.isGap after))

/-- The values of a list: commas stand between them, and one may stand behind the last. -/
def items? (ps : List Piece) : Option (List Value) :=
  let parts := (ps.splitOnP (Piece.isToken .comma)).map (strip Piece.isWideGap)
  let parts := if (parts.getLast?.getD []).isEmpty then parts.dropLast else parts
  parts.mapM value?

/-- The fields of a table between braces: commas stand between them. -/
def fields? (ps : List Piece) : Option (List (String × Value)) :=
  if (strip Piece.isGap ps).isEmpty then some []
  else do
    let assignments ← (ps.splitOnP (Piece.isToken .comma)).mapM
      (fun p => assignment? (strip Piece.isGap p))
    let entries ← assignments.foldlM (fun es a => Entries.assign a.1 a.2 false es) []
    return fieldsOf entries

mutual

/-- The piece that a node stands for. -/
def Node.piece? : Node → Option Piece
  | .token t => some (.token t)
  | .list inner => ((pieces? inner).bind items?).map (fun vs => .value (.list vs))
  | .table inner => ((pieces? inner).bind fields?).map (fun fs => .value (.table fs))

/-- The pieces that nodes stand for. -/
def pieces? : List Node → Option (List Piece)
  | [] => some []
  | n :: ns =>
    match n.piece?, pieces? ns with
    | some p, some ps => some (p :: ps)
    | _, _ => none

end

/-! ## Statements -/

/-- **A statement.** -/
inductive Statement where
  /-- Opens the table of a path. -/
  | openTable (path : List String)
  /-- Opens the next table in the list of a path. -/
  | openNext (path : List String)
  /-- Gives a value to a path. -/
  | assign (path : List String) (v : Value)

/-- The token that a node is, as a piece. -/
def Node.token? : Node → Option Piece
  | .token t => some (.token t)
  | _ => none

/-- Whether the node is a token that separates others in a line. -/
def Node.isGap : Node → Bool
  | .token t => t.isGap
  | _ => false

/-- Whether the node ends a line. -/
def Node.isLineBreak : Node → Bool
  | .token .lineBreak => true
  | _ => false

/-- The statement of a line that holds more than gaps. -/
def statement? : List Node → Option Statement
  | [.list [.list inner]] => ((inner.mapM Node.token?).bind path?).map .openNext
  | [.list inner] => ((inner.mapM Node.token?).bind path?).map .openTable
  | ns => ((pieces? ns).bind assignment?).map (fun a => .assign a.1 a.2)

/-- The statements of some nodes. -/
def statements? (ns : List Node) : Option (List Statement) :=
  (((ns.splitOnP Node.isLineBreak).map (strip Node.isGap)).filter (fun l => !l.isEmpty)).mapM
    statement?

/-! ## The whole file -/

/-- A file that is read up to a statement. -/
structure Draft where
  /-- What has been read. -/
  entries : Entries
  /-- The path of the open table. -/
  current : List String

/-- Changes the table above the one that a path leads to. -/
def Draft.atParent (change : String → Bool → Entries → Option Entries) (path : List String)
    (es : Entries) : Option Entries :=
  match path.getLast? with
  | none => none
  | some name => Entries.within false (change name) path.dropLast false es

/-- The draft after a statement. -/
def Draft.next (d : Draft) : Statement → Option Draft
  | .openTable path => (atParent Entries.openTable path d.entries).map (⟨·, path⟩)
  | .openNext path => (atParent Entries.openNext path d.entries).map (⟨·, path⟩)
  | .assign path v =>
    (Entries.within false (Entries.assign path v) d.current false d.entries).map (⟨·, d.current⟩)

/-- The text with a line feed alone at the end of each line. -/
def dropReturns : List Char → List Char
  | '\r' :: '\n' :: cs => '\n' :: dropReturns cs
  | c :: cs => c :: dropReturns cs
  | [] => []

/-- The text without the mark of its encoding at the front. -/
def dropMark : List Char → List Char
  | c :: cs => if c.toNat = 0xFEFF then cs else c :: cs
  | [] => []

/-- **Reads a settings file**: the named values of its table. -/
def read? (s : String) : Option (List (String × Value)) := do
  let ts ← tokens? (dropReturns (dropMark s.toList))
  let ns ← pair [] [] ts
  let statements ← statements? ns
  let draft ← statements.foldlM Draft.next ⟨[], []⟩
  return fieldsOf draft.entries

end CsdlAudit.Toml
