import CsdlAudit.Conflict.Report
import CsdlAudit.Graph.Build
import CsdlAudit.Graph.Cycles
import CsdlAudit.LineDiff.Edit
import CsdlAudit.Registry.Basic
import CsdlAudit.Schema.Written

/-!
# Detecting conflicts

Each pass reads the registry in the order of its keys and reports at most one conflict for a key.
Definitions clash when at least two files and at least two objects define one element; whether they
are also incompatible is a matter of policy.

The cycles of a graph of references and its unresolved references become conflicts as well, which
are warnings.
-/

namespace CsdlAudit

/-- **When two definitions of one element are incompatible.** -/
inductive DefinitionPolicy where
  /-- When they say different things. -/
  | structural
  /-- Always. -/
  | conservative
deriving DecidableEq, Repr, Inhabited

/-- The name of a policy. -/
def DefinitionPolicy.name : DefinitionPolicy → String
  | .structural => "structural"
  | .conservative => "conservative"

/-- **Which conflicts are looked for.** -/
structure DetectOptions where
  /-- When definitions are incompatible. -/
  policy : DefinitionPolicy
  /-- Whether annotation values are compared. -/
  annotations : Bool
  /-- Whether short names are compared. -/
  aliases : Bool
deriving DecidableEq, Repr

/-- The options that hold unless others are given. -/
def DetectOptions.standard : DetectOptions := ⟨.structural, true, true⟩

/-! ## Namespaces -/

/-- The files that carry the schema of a namespace, ascending. -/
def completeFiles (infos : List BlockInfo) : List String :=
  Ascending.ofList ((infos.filter (·.complete)).map (·.sourceFile))

/-- **The namespaces whose schema several files carry.** -/
def duplicateNamespaces (r : Registry) : List Conflict :=
  r.namespaces.filterMap fun namespaceName =>
    let files := completeFiles (r.infos.get namespaceName)
    if 1 < files.length then some (.duplicateNamespaceSchema namespaceName files) else none

/-! ## Definitions -/

/-- The files of records, ascending. -/
def filesOf (records : List ElementRecord) : List String :=
  Ascending.ofList (records.map (·.sourceFile))

/-- The records whose object is none of `seen` and of no earlier record. -/
def firstRecords (seen : List DefinitionObject) : List ElementRecord → List ElementRecord
  | [] => []
  | r :: rest =>
    if r.object ∈ seen then firstRecords seen rest
    else r :: firstRecords (r.object :: seen) rest

/-- **The first record of each object.** -/
def distinctBodies (records : List ElementRecord) : List ElementRecord := firstRecords [] records

/-- Whether several files and several objects define one element. -/
def clash (records : List ElementRecord) : Bool :=
  1 < (filesOf records).length && 1 < (distinctBodies records).length

/-- **The elements that several files define on their own.** -/
def duplicateElements (r : Registry) : List Conflict :=
  r.elements.toList.filterMap fun e =>
    if clash e.2 then some (.duplicateElement e.1.namespaceName e.1.name (filesOf e.2)) else none

/-- Whether records define elements of different kinds. -/
def kindsDiffer : List ElementRecord → Bool
  | [] => false
  | r :: rest => rest.any (fun s => s.kind != r.kind)

/-- Whether records have different fingerprints. -/
def printsDiffer : List ElementRecord → Bool
  | [] => false
  | r :: rest =>
    let print := r.object.definition.fingerprint
    rest.any (fun s => s.object.definition.fingerprint != print)

/-- Whether records that clash are incompatible. -/
def incompatible (policy : DefinitionPolicy) (records : List ElementRecord) : Bool :=
  kindsDiffer records ||
    match policy with
    | .conservative => true
    | .structural => printsDiffer (distinctBodies records)

/-- A record in the details of a conflict. -/
def ElementRecord.shown (withPrint : Bool) (r : ElementRecord) : String :=
  r.kind.name ++ " in " ++ r.sourceFile ++
    (if withPrint then " [" ++ r.object.definition.fingerprint.short ++ "]" else "")

/-- The details of incompatible definitions: who defines what, and the changes between two
definitions of one kind. -/
def incompatibilityDetails (bodies : List ElementRecord) (differentKinds : Bool) : String :=
  "Incompatible definitions found: " ++
    Text.join ", " (bodies.map (ElementRecord.shown (!differentKinds))) ++
    match bodies, differentKinds with
    | [a, b], false =>
      let changes := LineDiff.display a.object.definition.canonicalText
        b.object.definition.canonicalText
      if changes = "" then "" else "\n" ++ changes
    | _, _ => ""

/-- **The elements whose definitions are incompatible.** -/
def incompatibleDefinitions (policy : DefinitionPolicy) (r : Registry) : List Conflict :=
  r.elements.toList.filterMap fun e =>
    if clash e.2 && incompatible policy e.2 then
      some (.incompatibleDefinition e.1.namespaceName e.1.name (filesOf e.2)
        (incompatibilityDetails (distinctBodies e.2) (kindsDiffer e.2)))
    else none

/-! ## Annotations -/

/-- The list without members that equal the one before them. -/
def dropRepeats {α : Type} [DecidableEq α] : List α → List α
  | [] => []
  | [a] => [a]
  | a :: b :: rest => if a = b then dropRepeats (b :: rest) else a :: dropRepeats (b :: rest)

/-- Whether records carry different values. -/
def valuesDiffer : List AnnotationRecord → Bool
  | [] => false
  | r :: rest => rest.any (fun s => s.value != r.value)

/-- **The places whose values for one term differ.** -/
def annotationConflicts (r : Registry) : List Conflict :=
  r.annotations.toList.filterMap fun e =>
    if valuesDiffer e.2 then
      some (.annotationConflict e.1.namespaceName e.1.element e.1.term
        (dropRepeats (e.2.map fun s => (s.value, s.sourceFile))))
    else none

/-! ## Short names -/

/-- The blocks that use each short name, in the order of their namespaces. -/
def aliasUses (r : Registry) : Index String BlockInfo :=
  r.infos.values.foldl
    (fun index info =>
      match info.aliasName with
      | some a => if a = "" then index else index.add a info
      | none => index) .empty

/-- The blocks whose namespace is none of `seen` and of no earlier block. -/
def firstUses (seen : List String) : List BlockInfo → List BlockInfo
  | [] => []
  | i :: rest =>
    if i.namespaceName ∈ seen then firstUses seen rest
    else i :: firstUses (i.namespaceName :: seen) rest

/-- **The short names that stand for several namespaces.** -/
def aliasConflicts (r : Registry) : List Conflict :=
  (aliasUses r).toList.filterMap fun e =>
    let users := firstUses [] e.2
    if 1 < users.length then
      some (.aliasConflict e.1 (users.map fun i => (i.namespaceName, i.sourceFile)))
    else none

/-! ## All passes -/

/-- **The conflicts among definitions and annotations.** -/
def detect (options : DetectOptions) (r : Registry) : List Conflict :=
  duplicateNamespaces r ++ duplicateElements r ++ incompatibleDefinitions options.policy r ++
    (if options.annotations then annotationConflicts r else [])

/-- **The report of all passes.** -/
def fullReport (options : DetectOptions) (r : Registry) : Report :=
  ⟨detect options r ++ aliasConflicts r⟩

/-! ## What a graph shows -/

/-- The conflict of a closed path: its namespace is that of the first node. -/
def Graph.cycleConflict (g : Graph) (cycle : List String) : Conflict :=
  .circularReference (((cycle.head?.bind g.node?).map (·.namespaceName)).getD "") cycle
    (Ascending.ofList ((cycle.filterMap g.node?).map (·.sourceFile)))

/-- **A conflict for each cycle.** -/
def Graph.cycleConflicts (g : Graph) : List Conflict := g.cycles.map g.cycleConflict

/-- The conflict of an unresolved reference. -/
def Unresolved.conflict (u : Unresolved) : Conflict :=
  .missingReference u.namespaceName u.source u.target (some u.sourceFile) u.suggestion

/-- **A conflict for each unresolved reference.** -/
def ReferenceGraph.missingConflicts (g : ReferenceGraph) : List Conflict :=
  g.unresolved.map Unresolved.conflict

end CsdlAudit
