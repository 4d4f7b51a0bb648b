import CsdlAudit.CommandLine.Run

/-!
# The program

The program runs its command line over the files whose paths stand on its standard input, one on a
line; a path that ends in `/` is a folder. Nothing else exists for it. It reads the files, looks up
the variables that settings and the folder of the user may come from, and writes what the run shows,
its notes and its drawing.
-/

namespace CsdlAudit.CommandLine

/-- The variables that a run depends on. -/
def variableNames : List String :=
  ["HOME", "XDG_CONFIG_HOME"] ++
    ["VALIDATION__MAX_CONCURRENCY", "VALIDATION__FILE_PATTERN", "VALIDATION__SKIP_PREFIXES",
      "CONFLICTS__DEFINITION_POLICY", "CONFLICTS__DETECT_ANNOTATION_CONFLICTS",
      "CONFLICTS__DETECT_ALIAS_CONFLICTS", "GRAPH__PRIMITIVE_PREFIX", "GRAPH__DETECT_CYCLES",
      "GRAPH__REPORT_MISSING_REFERENCES", "GRAPH__SUGGEST_SIMILAR"].map ("CSDL_CONFLICTS__" ++ ·)

/-- Looks the variables up. -/
def readVariables : IO Variables :=
  variableNames.filterMapM fun name => do return (← IO.getEnv name).map (name, ·)

/-- Reads a file. -/
def readContent (path : String) : IO FileContent := do
  let bytes ← IO.FS.readBinFile path
  match String.fromUTF8? bytes with
  | some s => return .text s
  | none => return .bytes bytes.toList

/-- Adds the file or folder of a line to a tree. -/
def readLine (tree : Tree) (line : String) : IO Tree := do
  let path := Text.trim line
  if path = "" then return tree
  else if path.toList.getLast? = some '/' then return tree.addFolder path
  else return tree.addFile path (← readContent path)

/-- Reads the files whose paths stand on the standard input. -/
partial def readTree (input : IO.FS.Stream) (tree : Tree) : IO Tree := do
  let line ← input.getLine
  if line = "" then return tree
  else readTree input (← readLine tree line)

/-- Writes what a run leaves behind. -/
def writeOutcome (o : Outcome) (elapsed : Nat) : IO Unit := do
  for line in o.output elapsed "" do
    IO.println line
  for note in o.notes do
    IO.eprintln note
  match o.drawing with
  | some (path, text) => IO.FS.writeFile path text
  | none => return ()

end CsdlAudit.CommandLine

/-- **Runs the command line.** -/
def main (args : List String) : IO UInt32 := do
  let started ← IO.monoMsNow
  let tree ← CsdlAudit.CommandLine.readTree (← IO.getStdin) .empty
  let outcome := CsdlAudit.CommandLine.run tree (← CsdlAudit.CommandLine.readVariables) args
  CsdlAudit.CommandLine.writeOutcome outcome ((← IO.monoMsNow) - started)
  return outcome.status.toUInt32
