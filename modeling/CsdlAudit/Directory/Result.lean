import CsdlAudit.Config.Basic
import CsdlAudit.Conflict.Detect
import CsdlAudit.Directory.Verdicts
import CsdlAudit.Graph.Statistics

/-!
# The result of validating a directory

The result holds the verdicts on the files, what was found across them, and the graph of references.
How long the run took and when it took place belong to its written forms only.
-/

namespace CsdlAudit

/-- **What validating a directory gave.** -/
structure DirectoryResult where
  /-- Whether all files are compliant and do not conflict. -/
  compliant : Bool
  /-- The verdicts on the files. -/
  fileResults : Verdicts
  /-- The conflicts among definitions. -/
  conflicts : List Conflict
  /-- What the graph of references shows. -/
  referenceIssues : List Conflict
  /-- The errors that concern no single file. -/
  globalErrors : List String
  /-- The warnings that concern no single file. -/
  globalWarnings : List String
  /-- The files of each namespace. -/
  namespaceFiles : List (String × List String)
  /-- The directory. -/
  directoryPath : String
  /-- How many files there are. -/
  totalFiles : Nat
  /-- How many files are compliant. -/
  validFiles : Nat
  /-- How many files are not. -/
  invalidFiles : Nat
  /-- The statistics of the graph, if one was built. -/
  statistics : Option Statistics
  /-- The graph of references, if one was built. -/
  graph : Option ReferenceGraph
deriving DecidableEq

namespace DirectoryResult

/-- The result of a run that could not start. -/
def failed (directory message : String) : DirectoryResult :=
  ⟨false, [], [], [], [message], [], [], directory, 0, 0, 0, none, none⟩

/-- The result of a run that found no file. -/
def withoutFiles (directory : String) : DirectoryResult :=
  ⟨true, [], [], [], [], ["No XML files found matching the pattern"], [], directory, 0, 0, 0,
    none, none⟩

/-- Whether some namespace has more than one file. -/
def hasNamespaceConflicts (r : DirectoryResult) : Bool :=
  r.namespaceFiles.any (fun e => 1 < e.2.length)

/-- The files of a namespace. -/
def filesOf? (r : DirectoryResult) (namespaceName : String) : Option (List String) :=
  (r.namespaceFiles.find? (fun e => e.1 == namespaceName)).map Prod.snd

/-- The conflicts and issues of a type. -/
def ofType (r : DirectoryResult) (t : ConflictType) : List Conflict :=
  (r.conflicts ++ r.referenceIssues).filter (fun c => c.type == t)

/-- A span of milliseconds. -/
def timeText (elapsed : Nat) : String := "(" ++ toString elapsed ++ " ms)"

/-- **The result in four lines**, with the milliseconds that the run took. -/
def summary (r : DirectoryResult) (elapsed : Nat) : String :=
  "Directory: " ++ r.directoryPath ++ "\nFiles: " ++ toString r.totalFiles ++ " total, " ++
    toString r.validFiles ++ " valid, " ++ toString r.invalidFiles ++ " invalid\nConflicts: " ++
    toString r.conflicts.length ++ " | Global errors: " ++ toString r.globalErrors.length ++
    " | Global warnings: " ++ toString r.globalWarnings.length ++ "\nOverall: " ++
    (if r.compliant then "COMPLIANT" else "NON-COMPLIANT") ++ " " ++ timeText elapsed

/-- The JSON form of a result, with the milliseconds that the run took, its time, and the statistics
as `ofStatistics` writes them. -/
def toJsonWith (ofStatistics : Statistics → Json) (r : DirectoryResult) (elapsed : Nat)
    (validatedAt : String) : Json :=
  .object ([("compliant", .bool r.compliant),
    ("file_results", .object (r.fileResults.map fun e => (e.1, e.2.toJson))),
    ("conflicts", .list (r.conflicts.map Conflict.toJson)),
    ("reference_issues", .list (r.referenceIssues.map Conflict.toJson)),
    ("global_errors", .ofTexts r.globalErrors), ("global_warnings", .ofTexts r.globalWarnings),
    ("namespace_to_files", .object (r.namespaceFiles.map fun e => (e.1, .ofTexts e.2))),
    ("directory_path", .text r.directoryPath), ("validation_time_ms", .integer elapsed),
    ("validated_at", .text validatedAt), ("total_files", .integer r.totalFiles),
    ("valid_files", .integer r.validFiles), ("invalid_files", .integer r.invalidFiles)] ++
    Json.optionalField "dependency_statistics" ofStatistics r.statistics)

/-- **The JSON form of a result**, with the mean depth in six decimal places. -/
def toJson : DirectoryResult → Nat → String → Json := toJsonWith Statistics.toJson

/-- The JSON form of a result, with the mean depth in as many digits as it takes. -/
def toExactJson : DirectoryResult → Nat → String → Json := toJsonWith Statistics.toExactJson

end DirectoryResult

end CsdlAudit
