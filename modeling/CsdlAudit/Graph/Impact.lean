import CsdlAudit.Graph.Cycles
import CsdlAudit.Json

/-!
# Impact

The impact of an element is what depends on it: directly, or through others, and then with a path
that explains it.
-/

namespace CsdlAudit

/-- How far a change reaches. -/
inductive ImpactLevel where
  /-- Up to 5 elements. -/
  | low
  /-- 6 to 15 elements. -/
  | medium
  /-- 16 to 30 elements. -/
  | high
  /-- More than 30 elements. -/
  | critical
deriving DecidableEq, Repr

namespace ImpactLevel

/-- The level of a number of affected elements. -/
def ofAffected (count : Nat) : ImpactLevel :=
  if count ≤ 5 then .low
  else if count ≤ 15 then .medium
  else if count ≤ 30 then .high
  else .critical

/-- The level as it is shown. -/
def display : ImpactLevel → String
  | .low => "LOW"
  | .medium => "MEDIUM"
  | .high => "HIGH"
  | .critical => "CRITICAL"

/-- The level as it is stored. -/
def name : ImpactLevel → String
  | .low => "Low"
  | .medium => "Medium"
  | .high => "High"
  | .critical => "Critical"

end ImpactLevel

/-- **What a change of one element would affect.** -/
structure Impact where
  /-- The element. -/
  element : String
  /-- What depends on it directly, ascending. -/
  direct : List String
  /-- What depends on it through others only, ascending. -/
  transitive : List String
  /-- How many elements that are. -/
  total : Nat
  /-- A path from each transitive dependent to the element. -/
  paths : List (String × List String)
deriving DecidableEq, Repr

namespace Impact

/-- How far the change reaches. -/
def level (i : Impact) : ImpactLevel := .ofAffected i.total

/-- The impact on one line. -/
def summary (i : Impact) : String :=
  "Impact analysis for " ++ i.element ++ ": " ++ i.level.display ++ " impact, " ++
    toString i.direct.length ++ " direct and " ++ toString i.transitive.length ++
    " transitive dependent(s)"

/-- The JSON form of an impact. -/
def toJson (i : Impact) : Json :=
  .object [("element", .text i.element), ("direct_dependents", .ofTexts i.direct),
    ("transitive_dependents", .ofTexts i.transitive), ("total_affected", .integer i.total),
    ("impact_level", .text i.level.name),
    ("impact_paths", .object (i.paths.map fun p => (p.1, .ofTexts p.2)))]

end Impact

/-- **The impact of an element.** -/
def Graph.impact (g : Graph) (id : String) : Impact :=
  let all := g.allDependents id
  let direct := g.dependents id
  let transitive := all.filter (fun d => !direct.contains d)
  { element := id
    direct := direct
    transitive := transitive
    total := all.length
    paths := (transitive.map fun d => (d, g.path d id)).filter (fun p => !p.2.isEmpty) }

end CsdlAudit
