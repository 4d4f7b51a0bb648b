import CsdlAudit.Directory.Discover
import CsdlAudit.Directory.Result

/-!
# Validating a directory

A run has two phases. All files are judged first. Then the blocks of the compliant files are filed
in the order of their keys, and conflicts and the graph of references are looked into. A file that
is not compliant takes no part in the second phase.
-/

namespace CsdlAudit

/-- **Where filing the blocks of files stands.** -/
structure Intake where
  /-- What was filed. -/
  registry : Registry
  /-- Where the handles of new definitions start that no other has. -/
  nextHandle : Nat
  /-- What could not be filed. -/
  warnings : List String

namespace Intake

/-- Nothing was filed. -/
def initial : Intake := ⟨.empty, 0, []⟩

/-- Files a block that a file declares. -/
def addBlock (key : String) (i : Intake) (b : ReadBlock) : Intake :=
  let (registry, outcome) := i.registry.ingest key (b.block i.nextHandle)
  { registry := registry
    nextHandle := i.nextHandle + b.schema.definitions.length
    warnings := i.warnings ++
      match outcome with
      | .skipped => ["Schema without a namespace in " ++ key ++ " was skipped"]
      | .filed _ _ => [] }

/-- Files the blocks of a file, given by its key and its path, if it is compliant. -/
def addFile (c : Collaborators) (vs : Verdicts) (i : Intake) (f : String × String) : Intake :=
  if vs.isCompliant f.1 then
    match c.read f.2 with
    | .ok blocks => blocks.foldl (addBlock f.1) i
    | .error e =>
      { i with
        warnings := i.warnings ++
          ["Failed to extract schema elements from " ++ f.1 ++ ": " ++ e.message] }
  else i

/-- **The blocks of all compliant files.** -/
def ofFiles (c : Collaborators) (vs : Verdicts) (files : List (String × String)) : Intake :=
  files.foldl (addFile c vs) initial

end Intake

/-- A reference that cannot be read, as a warning. -/
def Failure.warning (f : Failure) : String :=
  "Could not read type reference '" ++ f.reference ++ "' of '" ++ f.source ++ "' in " ++
    f.sourceFile ++ ": " ++ f.reason

/-- The conflicts among definitions that a configuration asks for. -/
def Config.conflictsOf (c : Config) (r : Registry) : List Conflict :=
  detect c.conflicts r ++ (if c.conflicts.aliases then aliasConflicts r else [])

/-- The issues of the graph that a configuration asks for. -/
def Config.issuesOf (c : Config) (g : ReferenceGraph) : List Conflict :=
  (if c.graph.detectCycles then g.cycleConflicts else []) ++
    (if c.graph.reportMissing then g.missingConflicts else [])

/-- The conflicts of a severity in words. -/
def shownWith (s : Severity) (cs : List Conflict) : List String :=
  (cs.filter (fun c => c.severity == s)).map Conflict.display

/-- **The result of a run over files**, each a key with a path. -/
def validateFiles (config : Config) (c : Collaborators) (directory : String)
    (files : List (String × String)) : DirectoryResult :=
  let verdicts := judgeFiles c files
  let valid := verdicts.compliantCount
  let invalid := files.length - valid
  let intake := Intake.ofFiles c verdicts files
  let conflicts := config.conflictsOf intake.registry
  let graph := ReferenceGraph.build config.graph intake.registry.schemas
  let issues := config.issuesOf graph
  let errors := shownWith .error (conflicts ++ issues)
  { compliant := invalid == 0 && conflicts.isEmpty && errors.isEmpty
    fileResults := verdicts
    conflicts := conflicts
    referenceIssues := issues
    globalErrors := errors
    globalWarnings :=
      intake.warnings ++ graph.failures.map Failure.warning ++
        shownWith .warning (conflicts ++ issues) ++
        (if 0 < invalid then
          [toString invalid ++ " out of " ++ toString files.length ++
            " files failed individual validation"]
        else [])
    namespaceFiles := intake.registry.namespaceFiles
    directoryPath := directory
    totalFiles := files.length
    validFiles := valid
    invalidFiles := invalid
    statistics := some graph.statistics
    graph := some graph }

/-- **Validates a directory.** A directory that cannot be read gives a result with one error. -/
def validateDirectory (config : Config) (root : Tree) (c : Collaborators)
    (directory pattern : String) : DirectoryResult :=
  match discover root directory pattern config.validation.skipPrefixes with
  | .error e => .failed directory e.message
  | .ok [] => .withoutFiles directory
  | .ok keys => validateFiles config c directory (keys.map fun k => (k, filePath directory k))

end CsdlAudit
