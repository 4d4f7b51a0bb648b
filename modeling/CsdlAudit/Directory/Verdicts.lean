import CsdlAudit.Document.Blocks
import CsdlAudit.Document.Check
import CsdlAudit.AuditError
import CsdlAudit.Directory.Tree
import CsdlAudit.Registry.Block

/-!
# The verdicts on many files

Each file is judged on its own, by a checker that may also give up or break down; either way the
file has a verdict in the end. The verdicts are kept by key, so the order in which they arrive does
not show.
-/

namespace CsdlAudit

/-- **How a checker ends.** -/
inductive CheckOutcome where
  /-- It has a verdict. -/
  | judged (v : FileVerdict)
  /-- It gave up. -/
  | gaveUp (e : AuditError)
  /-- It broke down, possibly with a reason. -/
  | brokeDown (reason : Option String)
deriving DecidableEq

/-- **What reads files**: a checker and a reader of blocks, by path. -/
structure Collaborators where
  /-- Judges the file at a path. -/
  check : String → CheckOutcome
  /-- Reads the blocks of the file at a path. -/
  blocks : String → Except AuditError (List SchemaBlock)
  /-- The numbers by which the reader knows the definitions of each block of the file at a path. A
  reader that gives no definition twice knows none. -/
  known : String → List (List (Option Nat)) := fun _ => []

/-- **The blocks of the file at a path**, with what the reader knows of their definitions. -/
def Collaborators.read (c : Collaborators) (path : String) : Except AuditError (List ReadBlock) :=
  (c.blocks path).map fun blocks =>
    blocks.mapIdx fun place b => ⟨b, (c.known path).getD place []⟩

/-- Why a file with no text cannot be read. -/
def notText : AuditError := .unreadable "stream did not contain valid UTF-8"

/-- Why a missing file cannot be read. -/
def notThere : AuditError := .unreadable "No such file or directory (os error 2)"

/-- The text of the file at a path. -/
def readText (root : Tree) (path : String) : Except AuditError String :=
  match root.content? path with
  | some (.text s) => .ok s
  | some (.bytes _) => .error notText
  | none => .error notThere

/-- **The collaborators that read documents in a tree.** -/
def Collaborators.standard (root : Tree) : Collaborators where
  check path :=
    match readText root path with
    | .ok document => .judged (Document.check document path)
    | .error e => .gaveUp e
  blocks path :=
    match readText root path with
    | .error e => .error e
    | .ok document =>
      match Document.readBlocks document with
      | .ok blocks => .ok blocks
      | .error cause => .error (.document path cause)

/-- The verdict that a checker's outcome gives a file. -/
def CheckOutcome.verdict (key : String) : CheckOutcome → FileVerdict
  | .judged v => { v with fileName := key }
  | .gaveUp e => .failed key ("Validation failed: " ++ e.message)
  | .brokeDown reason => .failed key ("Validation failed: " ++ reason.getD "unknown panic")

/-- **Verdicts by key**, keys ascending. -/
abbrev Verdicts := List (String × FileVerdict)

namespace Verdicts

/-- The verdicts with one for a key, in place of an earlier one. -/
def put (key : String) (v : FileVerdict) : Verdicts → Verdicts
  | [] => [(key, v)]
  | (k, old) :: rest =>
    match compare key k with
    | .lt => (key, v) :: (k, old) :: rest
    | .eq => (key, v) :: rest
    | .gt => (k, old) :: put key v rest

/-- The verdict on a key. -/
def get? (vs : Verdicts) (key : String) : Option FileVerdict :=
  (vs.find? (fun e => e.1 == key)).map Prod.snd

/-- Whether there is a verdict on a key and it is compliant. -/
def isCompliant (vs : Verdicts) (key : String) : Bool :=
  ((vs.get? key).map (·.compliant)).getD false

/-- How many verdicts are compliant. -/
def compliantCount (vs : Verdicts) : Nat := (vs.filter (fun e => e.2.compliant)).length

end Verdicts

/-- **The verdicts on files**, each a key with a path, put together in the order given. -/
def judgeFiles (c : Collaborators) (files : List (String × String)) : Verdicts :=
  files.foldl (fun vs f => vs.put f.1 ((c.check f.2).verdict f.1)) []

end CsdlAudit
