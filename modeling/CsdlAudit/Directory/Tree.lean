import CsdlAudit.Text.Pieces

/-!
# Trees of files

A tree is a file with its content, a folder with named trees, or something else that has a name. A
path leads through a tree part by part: `.` stays, `..` goes back, and any other part goes on to the
entry of that name. A path that starts with `/` starts at the entry of that name.

A list of entries may name two trees alike, or give one a name that no path can ask for, and a folder
of a file system has no such entries. `Tree.listed` is what such a file system has: of the entries
with one name the first, which is the one that paths lead to.
-/

namespace CsdlAudit

/-- **The content of a file.** -/
inductive FileContent where
  /-- A text. -/
  | text (s : String)
  /-- Bytes that are no text. -/
  | bytes (bs : List UInt8)
deriving DecidableEq, Repr, Inhabited

/-- The text that a content is. -/
def FileContent.text? : FileContent → Option String
  | .text s => some s
  | .bytes _ => none

/-- **A tree of files.** -/
inductive Tree where
  /-- A file. -/
  | file (content : FileContent)
  /-- A folder with named entries. -/
  | folder (entries : List (String × Tree))
  /-- What is neither a file nor a folder, and cannot be opened: a socket. -/
  | other
deriving Inhabited

namespace Tree

/-- The folder without entries. -/
def empty : Tree := .folder []

/-- The parts of a path. -/
def parts (path : String) : List String :=
  match path.toList with
  | '/' :: rest => "/" :: Text.splitAll '/' (String.ofList rest)
  | _ => Text.splitAll '/' path

/-- The entry of a folder with a name. -/
def child? (name : String) (entries : List (String × Tree)) : Option Tree :=
  (entries.find? (fun e => e.1 == name)).map Prod.snd

/-! ## What a folder lists -/

/-- **A name of an entry**, as file systems have them. -/
structure IsName (name : String) : Prop where
  /-- It is not empty. -/
  ne_empty : name ≠ ""
  /-- It does not mean the folder itself. -/
  ne_here : name ≠ "."
  /-- It does not mean the folder above. -/
  ne_up : name ≠ ".."
  /-- It has no slash. -/
  slash_notMem : '/' ∉ name.toList

instance (name : String) : Decidable (IsName name) :=
  decidable_of_iff (name ≠ "" ∧ name ≠ "." ∧ name ≠ ".." ∧ '/' ∉ name.toList)
    ⟨fun ⟨h₁, h₂, h₃, h₄⟩ => ⟨h₁, h₂, h₃, h₄⟩, fun h => ⟨h.1, h.2, h.3, h.4⟩⟩

mutual

/-- **The tree that a file system has**: its folders list each name once. -/
def listed : Tree → Tree
  | .file content => .file content
  | .folder entries => .folder (listedEntries [] entries)
  | .other => .other

/-- The entries that a folder lists, but for those with the names in `seen`. -/
def listedEntries (seen : List String) : List (String × Tree) → List (String × Tree)
  | [] => []
  | (name, t) :: rest =>
    if IsName name ∧ name ∉ seen then (name, t.listed) :: listedEntries (name :: seen) rest
    else listedEntries seen rest

end

/-! ## Following a path -/

/-- Why a path leads nowhere. -/
inductive PathFault where
  /-- A part does not exist, or cannot be opened. -/
  | notFound
  /-- A part that is not the last is no folder. -/
  | notADirectory
  /-- A file is wanted where a folder is. -/
  | isADirectory
deriving DecidableEq, Repr

/-- Follows parts from a tree; `above` are the folders on the way to it, nearest first. -/
def follow (above : List Tree) (here : Tree) : List String → Except PathFault Tree
  | [] => .ok here
  | part :: rest =>
    match here with
    | .file _ | .other => .error .notADirectory
    | .folder entries =>
      if part = "" ∨ part = "." then follow above here rest
      else if part = ".." then
        match above with
        | [] => .error .notFound
        | up :: above => follow above up rest
      else
        match child? part entries with
        | some next => follow (here :: above) next rest
        | none => .error .notFound

/-- **What a path leads to.** -/
def resolve (root : Tree) (path : String) : Except PathFault Tree :=
  if path = "" then .error .notFound else follow [] root (parts path)

/-- What a path leads to, if anything. -/
def at? (root : Tree) (path : String) : Option Tree := (root.resolve path).toOption

/-- The content of the file that a path leads to. -/
def content? (root : Tree) (path : String) : Option FileContent :=
  match root.at? path with
  | some (.file content) => some content
  | _ => none

/-- Whether a path leads to a file. -/
def isFile (root : Tree) (path : String) : Bool := (root.content? path).isSome

/-! ## Growing -/

/-- Puts a tree in the place of an entry, or behind the entries. -/
def putEntry (name : String) (t : Tree) : List (String × Tree) → List (String × Tree)
  | [] => [(name, t)]
  | e :: rest => if e.1 = name then (name, t) :: rest else e :: putEntry name t rest

/-- The tree with another one below it; folders on the way are made. -/
def put (leaf : Tree) (t : Tree) : (parts : List String) → Tree
  | [] => leaf
  | part :: rest =>
    let entries :=
      match t with
      | .folder entries => entries
      | .file _ | .other => []
    .folder (putEntry part (put leaf ((child? part entries).getD empty) rest) entries)

/-- The parts of a path that name entries. -/
def plainParts (path : String) : List String :=
  (parts path).filter (fun p => p != "" && p != ".")

/-- The names on the way to a place, after a part that leads on from there. -/
def turn (names : List String) (part : String) : List String :=
  if part = "" ∨ part = "." then names
  else if part = ".." then names.dropLast
  else names ++ [part]

/-- **The names on the way to what a path leads to.** -/
def namesTo (path : String) : List String := (parts path).foldl turn []

/-- The tree with a file at a path. -/
def addFile (root : Tree) (path : String) (content : FileContent) : Tree :=
  put (.file content) root (namesTo path)

/-- The tree with a folder at a path. -/
def addFolder (root : Tree) (path : String) : Tree :=
  match root.at? path with
  | some (.folder _) => root
  | _ => put empty root (namesTo path)

/-- Why no file can be written at a path, if so. -/
def writeFault? (root : Tree) (path : String) : Option PathFault :=
  if path = "" then some .notFound
  else
    match (parts path).getLast? with
    | none => some .notFound
    | some last =>
      match follow [] root (parts path).dropLast with
      | .error fault => some fault
      | .ok (.file _) | .ok .other => some .notADirectory
      | .ok (.folder entries) =>
        if last = "" ∨ last = "." ∨ last = ".." then some .isADirectory
        else
          match child? last entries with
          | some (.folder _) => some .isADirectory
          | some .other => some .notFound
          | _ => none

end Tree

end CsdlAudit
