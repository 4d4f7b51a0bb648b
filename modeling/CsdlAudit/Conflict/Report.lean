import CsdlAudit.Conflict.Basic

/-!
# Reports

A report is a list of conflicts with what can be counted and grouped in it.
-/

namespace CsdlAudit

/-- **All conflicts of one run.** -/
structure Report where
  /-- The conflicts, in the order in which they were found. -/
  conflicts : List Conflict
deriving DecidableEq, Repr

namespace Report

/-- The conflicts of a type. -/
def ofType (r : Report) (t : ConflictType) : List Conflict :=
  r.conflicts.filter (fun c => c.type == t)

/-- How many conflicts of a type there are. -/
def count (r : Report) (t : ConflictType) : Nat := (r.ofType t).length

/-- The types that occur, each with its conflicts. -/
def groups (r : Report) : List (ConflictType × List Conflict) :=
  (ConflictType.all.map fun t => (t, r.ofType t)).filter (fun g => !g.2.isEmpty)

/-- How many conflicts have a severity. -/
def severityCount (r : Report) (s : Severity) : Nat :=
  (r.conflicts.filter (fun c => c.severity == s)).length

/-- A line for each conflict. -/
def issueLines (r : Report) : List String := r.conflicts.map Conflict.line

/-- The report on one line. -/
def summary (r : Report) : String :=
  if r.conflicts.isEmpty then "No conflicts detected"
  else
    toString r.conflicts.length ++ " conflict(s) detected (" ++
      Text.join ", " (r.groups.map fun g =>
        g.1.displayName ++ ": " ++ toString g.2.length) ++ ")"

/-- The JSON form of a report. -/
def toJson (r : Report) : Json :=
  .object [("conflicts", .list (r.conflicts.map Conflict.toJson)),
    ("by_type", .object (r.groups.map fun g => (g.1.name, .list (g.2.map Conflict.toJson))))]

end Report

end CsdlAudit
