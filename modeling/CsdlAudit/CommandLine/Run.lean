import CsdlAudit.CommandLine.Arguments
import CsdlAudit.Config.Load
import CsdlAudit.Directory.Result
import CsdlAudit.Directory.Run
import CsdlAudit.Graph.Drawing
import CsdlAudit.Graph.Impact

/-!
# Running a command line

A run loads the configuration, validates the directory and shows the result in paragraphs with a
heading and indented lines; a paragraph without lines is left out. Where it is asked for, the graph
of references is drawn to a file and the impact of an element is shown. A run that cannot go on says
why in its notes, but keeps what it has shown.
-/

namespace CsdlAudit.CommandLine

/-! ## What is shown -/

/-- A paragraph behind an empty line, unless it has no lines. -/
def paragraph (heading : String) (lines : List String) : List String :=
  if lines.isEmpty then [] else "" :: heading :: lines

/-- The lines on a file that is not compliant. -/
def verdictLines (v : FileVerdict) : List String :=
  ("  " ++ v.fileName) :: v.errors.map ("    └─ " ++ ·)

/-- **The lines of a result**, with the milliseconds that the run took. -/
def resultLines (r : DirectoryResult) (elapsed : Nat) : List String :=
  ["🔍 " ++ r.directoryPath,
    "   " ++ toString r.totalFiles ++ " file(s): " ++ toString r.validFiles ++ " valid, " ++
      toString r.invalidFiles ++ " invalid " ++ DirectoryResult.timeText elapsed] ++
  paragraph "❌ Files failing validation:"
    ((r.fileResults.filter (fun e => !e.2.compliant)).flatMap (fun e => verdictLines e.2)) ++
  paragraph "📦 Namespaces:"
    (r.namespaceFiles.map fun e => "  " ++ e.1 ++ " (" ++ Text.join ", " e.2 ++ ")") ++
  paragraph ("❌ " ++ toString r.globalErrors.length ++ " error(s):")
    (r.globalErrors.map ("  " ++ ·)) ++
  paragraph ("⚠️  " ++ toString r.globalWarnings.length ++ " warning(s):")
    (r.globalWarnings.map ("  " ++ ·)) ++
  (match r.statistics with
    | some s => ["", "📊 " ++ s.display]
    | none => []) ++
  ["", if r.compliant then "✅ Directory is compliant" else "❌ Directory is NOT compliant"]

/-- The lines of an impact. -/
def impactLines (i : Impact) : List String :=
  ["", "🎯 " ++ i.summary] ++ i.direct.map ("   ├─ " ++ ·) ++
    i.paths.map fun p => "   └─ " ++ p.1 ++ " via " ++ Text.join " -> " p.2

/-! ## The run -/

/-- **Why a run cannot go on.** -/
inductive RunFault where
  /-- The configuration cannot be loaded. -/
  | configuration (cause : ConfigError)
  /-- There is no graph to draw or to ask. -/
  | noGraph
  /-- The drawing cannot be written. -/
  | unwritable (path : String) (cause : Tree.PathFault)
  /-- The element is not in the graph. -/
  | unknownElement (element : String)
deriving DecidableEq, Repr

/-- Why a file cannot be written, in words. -/
def writeMessage : Tree.PathFault → String
  | .notFound => "No such file or directory (os error 2)"
  | .notADirectory => "Not a directory (os error 20)"
  | .isADirectory => "Is a directory (os error 21)"

/-- Why a run cannot go on, in words. -/
def RunFault.message : RunFault → String
  | .configuration cause => "Failed to load configuration: " ++ cause.message
  | .noGraph => "No dependency graph was built"
  | .unwritable path cause => "Failed to write " ++ path ++ ": " ++ writeMessage cause
  | .unknownElement element => "Element '" ++ element ++ "' is not in the dependency graph"

/-- **What a run leaves behind.** -/
structure Outcome where
  /-- The status: 0 if the directory is compliant, 1 if it is not, 2 if the run could not go on. -/
  status : Nat
  /-- The result that is shown. -/
  shown : Option (Format × DirectoryResult)
  /-- The lines behind the result. -/
  behind : List String
  /-- The notes about the run itself. -/
  notes : List String
  /-- The path of the drawing and the drawing, if one is written. -/
  drawing : Option (String × String)

namespace Outcome

/-- A run that shows nothing. -/
def silent (status : Nat) : Outcome := ⟨status, none, [], [], none⟩

/-- The files after a run. -/
def treeAfter (o : Outcome) (tree : Tree) : Tree :=
  match o.drawing with
  | some (path, text) => tree.addFile path (.text text)
  | none => tree

/-- The run that could not go on. -/
def stop (o : Outcome) (fault : RunFault) : Outcome :=
  { o with status := 2, notes := o.notes ++ ["Error: " ++ fault.message] }

/-- **What is shown**, with the milliseconds that the run took and its time. -/
def output (o : Outcome) (elapsed : Nat) (validatedAt : String) : List String :=
  (match o.shown with
    | none => []
    | some (.text, r) => resultLines r elapsed
    | some (.json, r) => [(r.toExactJson elapsed validatedAt).pretty]) ++ o.behind

end Outcome

/-- Draws the graph to a file. -/
def draw (tree : Tree) (graph : Option ReferenceGraph) (o : Outcome) (path : String) :
    Except RunFault Outcome :=
  match graph with
  | none => .error .noGraph
  | some g =>
    match tree.writeFault? path with
    | some fault => .error (.unwritable path fault)
    | none =>
      .ok { o with
        drawing := some (path, g.drawing)
        notes := o.notes ++ ["✅ Dependency graph written to " ++ path] }

/-- Shows the impact of an element. -/
def showImpact (graph : Option ReferenceGraph) (o : Outcome) (element : String) :
    Except RunFault Outcome :=
  match graph with
  | none => .error .noGraph
  | some g =>
    match g.resolve element with
    | none => .error (.unknownElement element)
    | some id => .ok { o with behind := o.behind ++ impactLines (g.impact id) }

/-- Goes on with an outcome, or stops it. -/
def Outcome.andThen (o : Outcome) (wish : Option String)
    (act : Outcome → String → Except RunFault Outcome) (next : Outcome → Outcome) : Outcome :=
  match wish with
  | none => next o
  | some s =>
    match act o s with
    | .ok o => next o
    | .error fault => o.stop fault

/-- **Validates a directory as a request says.** -/
def carryOut (tree : Tree) (config : Config) (directory : String) (r : Request) : Outcome :=
  let config :=
    match r.concurrency with
    | some n => { config with validation.maxConcurrency := max n 1 }
    | none => config
  let pattern := r.pattern.getD config.validation.filePattern
  let result := validateDirectory config tree (.standard tree) directory pattern
  let done : Outcome :=
    ⟨if result.compliant then 0 else 1, some (r.format.getD .text, result), [], [], none⟩
  done.andThen r.drawing (draw tree result.graph) fun o =>
    o.andThen r.impact (showImpact result.graph) id

/-- **Runs a command line** in a tree of files. -/
def run (tree : Tree) (vars : Variables) (args : List String) : Outcome :=
  match request args with
  | .error .help => .silent 0
  | .error .misuse => .silent 2
  | .ok (directory, r) =>
    match Config.load tree vars r.config with
    | .error cause => (Outcome.silent 2).stop (.configuration cause)
    | .ok config => carryOut tree config directory r

end CsdlAudit.CommandLine
