import CsdlAudit.Conflict.Detect
import CsdlAudit.Graph.Build

/-!
# Configuration

A configuration has three sections: which files are validated and how many at a time, which
conflicts are looked for, and how the graph of references is built and reported. Every setting has
a standard value.
-/

namespace CsdlAudit

/-- **Which files are validated**, and how many at a time. -/
structure ValidationOptions where
  /-- How many files are validated at a time. -/
  maxConcurrency : Nat
  /-- The pattern of file names. -/
  filePattern : String
  /-- How the keys of skipped files begin. -/
  skipPrefixes : List String
deriving DecidableEq, Repr

/-- The options that hold unless others are given. -/
def ValidationOptions.standard : ValidationOptions := ⟨4, "*.xml", ["target/", ".git/"]⟩

/-- **A configuration.** -/
structure Config where
  /-- Which files are validated. -/
  validation : ValidationOptions
  /-- Which conflicts are looked for. -/
  conflicts : DetectOptions
  /-- How the graph is built. -/
  graph : GraphOptions
deriving DecidableEq, Repr

/-- The configuration that holds unless another is given. -/
def Config.standard : Config := ⟨.standard, .standard, .standard⟩

/-! ## JSON forms -/

/-- Reads a policy. -/
def DefinitionPolicy.ofJson? (v : Json) : Option DefinitionPolicy :=
  match v.text? with
  | some "structural" => some .structural
  | some "conservative" => some .conservative
  | _ => none

/-- Reads the section on files. -/
def ValidationOptions.ofJson? (v : Json) : Option ValidationOptions := do
  let fs ← v.fields?
  let std := ValidationOptions.standard
  return ⟨← Json.defaulted std.maxConcurrency Json.count? "max_concurrency" fs,
    ← Json.defaulted std.filePattern Json.text? "file_pattern" fs,
    ← Json.defaulted std.skipPrefixes (Json.list? Json.text?) "skip_prefixes" fs⟩

/-- Reads the section on conflicts. -/
def DetectOptions.ofJson? (v : Json) : Option DetectOptions := do
  let fs ← v.fields?
  return ⟨← Json.defaulted .structural DefinitionPolicy.ofJson? "definition_policy" fs,
    ← Json.defaulted true Json.bool? "detect_annotation_conflicts" fs,
    ← Json.defaulted true Json.bool? "detect_alias_conflicts" fs⟩

/-- Reads the section on the graph. -/
def GraphOptions.ofJson? (v : Json) : Option GraphOptions := do
  let fs ← v.fields?
  return ⟨← Json.defaulted GraphOptions.standard.primitiveStart Json.text? "primitive_prefix" fs,
    ← Json.defaulted true Json.bool? "detect_cycles" fs,
    ← Json.defaulted true Json.bool? "report_missing_references" fs,
    ← Json.defaulted true Json.bool? "suggest_similar" fs⟩

/-- **Reads a configuration.** -/
def Config.ofJson? (v : Json) : Option Config := do
  let fs ← v.fields?
  return ⟨← Json.defaulted .standard ValidationOptions.ofJson? "validation" fs,
    ← Json.defaulted .standard DetectOptions.ofJson? "conflicts" fs,
    ← Json.defaulted .standard GraphOptions.ofJson? "graph" fs⟩

/-- **The JSON form of a configuration.** -/
def Config.toJson (c : Config) : Json :=
  .object [
    ("validation", .object [("max_concurrency", .integer c.validation.maxConcurrency),
      ("file_pattern", .text c.validation.filePattern),
      ("skip_prefixes", .ofTexts c.validation.skipPrefixes)]),
    ("conflicts", .object [("definition_policy", .text c.conflicts.policy.name),
      ("detect_annotation_conflicts", .bool c.conflicts.annotations),
      ("detect_alias_conflicts", .bool c.conflicts.aliases)]),
    ("graph", .object [("primitive_prefix", .text c.graph.primitiveStart),
      ("detect_cycles", .bool c.graph.detectCycles),
      ("report_missing_references", .bool c.graph.reportMissing),
      ("suggest_similar", .bool c.graph.suggestSimilar)])]

end CsdlAudit
