import CsdlAudit.Config.Basic
import CsdlAudit.Config.Error
import CsdlAudit.Config.Setting
import CsdlAudit.Natural

/-!
# From settings to a configuration

Settings are taken generously. A truth value, a number with a fraction and a text with digits serve
as a count, a number serves as a truth value, and numbers and truth values serve as a text. A
section may list its settings in order instead of naming them. Settings that are absent have their
standard values, and others than the known ones are passed over.
-/

namespace CsdlAudit

namespace Setting

/-- Where a setting came from. -/
def origin? : Setting → Option String
  | .nothing => none
  | .bool _ o | .integer _ o | .number _ o | .text _ o => some o
  | .list _ o | .table _ o => o

/-- What a setting is, for an error. -/
def found : Setting → Found
  | .nothing => .nothing
  | .bool b _ => .bool b
  | .integer n _ => .integer n
  | .number x _ => .number x
  | .text s _ => .text s
  | .list .. => .list
  | .table .. => .table

/-- The error for a setting that cannot be taken for what is wanted. -/
def unsuited (s : Setting) (wanted : Wanted) : ConfigError := .unsuited s.found wanted "" s.origin?

/-! ## Single values -/

/-- The truth value that a text in lower case names. -/
def flagName? (s : String) : Option Bool :=
  if s = "true" ∨ s = "on" ∨ s = "yes" then some true
  else if s = "false" ∨ s = "off" ∨ s = "no" then some false
  else none

/-- The count that a text writes. -/
def writtenCount? (s : String) : Option Nat :=
  let cs := s.toList
  (Text.natural? 10 (if cs.head? = some '+' then cs.drop 1 else cs)).filter
    (fun n => decide (n < countBound))

/-- **Takes a setting for a count.** -/
def count (s : Setting) : Except ConfigError Nat :=
  match s with
  | .bool b _ => .ok (if b then 1 else 0)
  | .integer n o => if n < 0 then .error (.negative n "" (some o)) else .ok n.toNat
  | .number x _ => .ok x.toCount
  | .text t _ =>
    match flagName? (Text.lowercase t) with
    | some b => .ok (if b then 1 else 0)
    | none =>
      match writtenCount? t with
      | some n => .ok n
      | none => .error (s.unsuited .count)
  | _ => .error (s.unsuited .count)

/-- **Takes a setting for a truth value.** -/
def flag (s : Setting) : Except ConfigError Bool :=
  match s with
  | .bool b _ => .ok b
  | .integer n _ => .ok (n != 0)
  | .number x _ => .ok (!x.isZero)
  | .text t o =>
    let lower := Text.lowercase t
    if lower = "1" then .ok true
    else if lower = "0" then .ok false
    else
      match flagName? lower with
      | some b => .ok b
      | none => .error ((Setting.text lower o).unsuited .flag)
  | _ => .error (s.unsuited .flag)

/-- **Takes a setting for a text.** -/
def words (s : Setting) : Except ConfigError String :=
  match s with
  | .text t _ => .ok t
  | .bool b _ => .ok (if b then "true" else "false")
  | .integer n _ => .ok (toString n)
  | .number x _ => .ok x.display
  | _ => .error (s.unsuited .text)

/-- Takes each item for a text; `place` is the place of the first. -/
def wordsFrom (place : Nat) : List Setting → Except ConfigError (List String)
  | [] => .ok []
  | s :: rest => do
    let t ← s.words.mapError (.below ("[" ++ toString place ++ "]"))
    return t :: (← wordsFrom (place + 1) rest)

/-- **Takes a setting for a list of texts.** -/
def wordList (s : Setting) : Except ConfigError (List String) :=
  match s with
  | .list items _ => wordsFrom 0 items
  | _ => .error (.notAList s.found)

/-- The policy of a name, without regard to case. -/
def policyNamed (name : String) : Except ConfigError DefinitionPolicy :=
  let lower := Text.lowercase name
  if lower = DefinitionPolicy.structural.name then .ok .structural
  else if lower = DefinitionPolicy.conservative.name then .ok .conservative
  else .error (.unknownPolicy name)

/-- **Takes a setting for a policy.** -/
def policy (s : Setting) : Except ConfigError DefinitionPolicy :=
  match s with
  | .text name _ => policyNamed name
  | .table [(name, _)] _ => policyNamed name
  | _ => .error .policyShape

/-! ## Sections -/

/-- The setting of a section and how it is called there: by its name, or by its place if the section
is a list. -/
def member (section_ : Setting) (name : String) (place : Nat) : Option (String × Setting) :=
  match section_ with
  | .list items _ => items[place]?.map (fun s => ("[" ++ toString place ++ "]", s))
  | _ => (section_.member? name).map (fun s => (name, s))

/-- Takes a setting of a section, or the standard value if it is absent. -/
def take {α : Type} (section_ : Setting) (name : String) (place : Nat) (standard : α)
    (as : Setting → Except ConfigError α) : Except ConfigError α :=
  match section_.member name place with
  | none => .ok standard
  | some (called, s) => (as s).mapError (.below called)

/-- Refuses a setting that is no section. -/
def asSection (s : Setting) (name : String) : Except ConfigError Unit :=
  match s with
  | .list .. | .table .. => .ok ()
  | _ => .error (.notASection s.found name)

/-- Takes a setting for the section on files. -/
def validation (s : Setting) : Except ConfigError ValidationOptions := do
  s.asSection "ValidationConfig"
  let std := ValidationOptions.standard
  return ⟨← s.take "max_concurrency" 0 std.maxConcurrency count,
    ← s.take "file_pattern" 1 std.filePattern words,
    ← s.take "skip_prefixes" 2 std.skipPrefixes wordList⟩

/-- Takes a setting for the section on conflicts. -/
def conflicts (s : Setting) : Except ConfigError DetectOptions := do
  s.asSection "ConflictConfig"
  let std := DetectOptions.standard
  return ⟨← s.take "definition_policy" 0 std.policy policy,
    ← s.take "detect_annotation_conflicts" 1 std.annotations flag,
    ← s.take "detect_alias_conflicts" 2 std.aliases flag⟩

/-- Takes a setting for the section on the graph. -/
def graph (s : Setting) : Except ConfigError GraphOptions := do
  s.asSection "GraphConfig"
  let std := GraphOptions.standard
  return ⟨← s.take "primitive_prefix" 0 std.primitiveStart words,
    ← s.take "detect_cycles" 1 std.detectCycles flag,
    ← s.take "report_missing_references" 2 std.reportMissing flag,
    ← s.take "suggest_similar" 3 std.suggestSimilar flag⟩

/-- **Takes settings for a configuration.** At least one file is validated at a time. -/
def config (s : Setting) : Except ConfigError Config := do
  let v ← s.take "validation" 0 ValidationOptions.standard validation
  let c ← s.take "conflicts" 1 DetectOptions.standard conflicts
  let g ← s.take "graph" 2 GraphOptions.standard graph
  return ⟨{ v with maxConcurrency := max v.maxConcurrency 1 }, c, g⟩

end Setting

end CsdlAudit
