import CsdlAudit.Ascending
import CsdlAudit.AuditError
import CsdlAudit.Directory.Tree

/-!
# Finding files

The files to validate are those below a folder whose name or key fits a pattern. The key of a file
is its path from the folder. A file whose key begins with a skipped start is left out, and so is all
that lies in a folder whose key with a slash does. What is neither a file nor a folder is passed
over.
-/

namespace CsdlAudit

/-- The key of an entry of the folder with a key. -/
def childKey (base name : String) : String := if base = "" then name else base ++ "/" ++ name

/-- Whether a key begins with one of the skipped starts. -/
def isSkipped (skip : List String) (key : String) : Bool :=
  skip.any (fun start => Text.beginsWith start key)

/-- Whether a pattern picks a file by its name or its key. -/
def picks (g : Glob) (name key : String) : Bool := g.fits name || g.fits key

mutual

/-- The keys of the picked files in a tree that stands under a name in the folder `base`. -/
def walk (skip : List String) (g : Glob) (base name : String) : Tree → List String
  | .file _ =>
    if isSkipped skip (childKey base name) then []
    else if picks g name (childKey base name) then [childKey base name] else []
  | .folder entries =>
    if isSkipped skip (childKey base name ++ "/") then []
    else walkEntries skip g (childKey base name) entries
  | .other => []

/-- The keys of the picked files among the entries of the folder `base`. -/
def walkEntries (skip : List String) (g : Glob) (base : String) :
    List (String × Tree) → List String
  | [] => []
  | (name, t) :: rest => walk skip g base name t ++ walkEntries skip g base rest

end

/-- **The keys of the files to validate**, ascending. -/
def discover (root : Tree) (directory pattern : String) (skip : List String) :
    Except AuditError (List String) :=
  match root.at? directory with
  | none => .error (.directoryNotFound directory)
  | some (.file _) | some .other => .error (.notADirectory directory)
  | some (.folder entries) =>
    match Glob.ofText pattern with
    | .error fault => .error (.invalidPattern pattern fault)
    | .ok g => .ok (Ascending.sort (walkEntries skip g "" (Tree.listedEntries [] entries)))

/-- The path of the file with a key. -/
def filePath (directory key : String) : String :=
  if directory.toList.getLast? = some '/' then directory ++ key else directory ++ "/" ++ key

end CsdlAudit
