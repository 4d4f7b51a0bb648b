import CsdlAudit.Config.Basic
import CsdlAudit.Directory.Tree
import CsdlAudit.Natural
import CsdlAudit.Toml.Text

/-!
# Saving a configuration

A configuration is written as a settings file with one section for each of its own, every setting on
a line. A list of two or more texts is written over several lines. A count that no settings file can
hold is not written at all.
-/

namespace CsdlAudit

/-! ## The settings file of a configuration -/

/-- A line of a settings file that gives a value to a name. -/
def settingLine (name : String) (value : List Char) : List Char :=
  name.toList ++ " = ".toList ++ value ++ ['\n']

/-- A truth value as it is written. -/
def writtenFlag (b : Bool) : List Char := (if b then "true" else "false").toList

/-- A list of texts as it is written. -/
def writtenList : List String → List Char
  | [] => ['[', ']']
  | [s] => '[' :: (Toml.writeText s ++ [']'])
  | items =>
    '[' :: '\n' ::
      (items.flatMap (fun s => "    ".toList ++ Toml.writeText s ++ [',', '\n']) ++ [']'])

/-- The section on files. -/
def ValidationOptions.written (o : ValidationOptions) : List Char :=
  "[validation]\n".toList ++
    settingLine "max_concurrency" (Nat.toDigits 10 o.maxConcurrency) ++
    settingLine "file_pattern" (Toml.writeText o.filePattern) ++
    settingLine "skip_prefixes" (writtenList o.skipPrefixes)

/-- The section on conflicts. -/
def DetectOptions.written (o : DetectOptions) : List Char :=
  "[conflicts]\n".toList ++
    settingLine "definition_policy" (Toml.writeText o.policy.name) ++
    settingLine "detect_annotation_conflicts" (writtenFlag o.annotations) ++
    settingLine "detect_alias_conflicts" (writtenFlag o.aliases)

/-- The section on the graph. -/
def GraphOptions.written (o : GraphOptions) : List Char :=
  "[graph]\n".toList ++
    settingLine "primitive_prefix" (Toml.writeText o.primitiveStart) ++
    settingLine "detect_cycles" (writtenFlag o.detectCycles) ++
    settingLine "report_missing_references" (writtenFlag o.reportMissing) ++
    settingLine "suggest_similar" (writtenFlag o.suggestSimilar)

/-- **The settings file of a configuration**, unless its count is too great for one. -/
def Config.written? (c : Config) : Option String :=
  if fitsInteger c.validation.maxConcurrency then
    some (String.ofList
      (c.validation.written ++ '\n' :: c.conflicts.written ++ '\n' :: c.graph.written))
  else none

/-! ## Saving -/

/-- **Why a configuration is not saved.** -/
inductive SaveFault where
  /-- Its count is too great for a settings file. -/
  | tooGreat
  /-- No file can be written at the path. -/
  | path (fault : Tree.PathFault)
deriving DecidableEq, Repr

/-- Saves a text, if there is one, as the file at a path: what is written, and the tree with the
file. -/
def saveText (tree : Tree) (path : String) : Option String → Except SaveFault (String × Tree)
  | none => .error .tooGreat
  | some text =>
    match tree.writeFault? path with
    | some fault => .error (.path fault)
    | none => .ok (text, tree.addFile path (.text text))

/-- **Saves a configuration** as the settings file at a path. -/
def Config.save (tree : Tree) (path : String) (c : Config) : Except SaveFault (String × Tree) :=
  saveText tree path c.written?

end CsdlAudit
