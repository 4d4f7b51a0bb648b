import CsdlAudit.Natural
import CsdlAudit.Text.Lowercase
import CsdlAudit.Toml.Table

/-!
# Layers of settings

The settings of several sources are laid one over the other: a table is merged name by name, and
any other value takes the place of what was there. Names count without regard to case. A source
names a setting by a path such as `a.b` or `a.b[0]`; a key that is no path is one name.
-/

namespace CsdlAudit

/-- **A setting.** Values remember where they came from. -/
inductive Setting where
  /-- No value. -/
  | nothing
  /-- A truth value. -/
  | bool (b : Bool) (origin : String)
  /-- A whole number. -/
  | integer (n : Int) (origin : String)
  /-- A number with a fraction or an exponent. -/
  | number (x : Double) (origin : String)
  /-- A text. -/
  | text (s : String) (origin : String)
  /-- Settings in order. -/
  | list (items : List Setting) (origin : Option String)
  /-- Named settings. -/
  | table (fields : List (String × Setting)) (origin : Option String)
deriving Inhabited

namespace Setting

/-- The table without settings. -/
def empty : Setting := .table [] none

mutual

/-- A value of a settings file. -/
def ofValue (origin : String) : Toml.Value → Setting
  | .text s => .text s origin
  | .integer n => .integer n origin
  | .number x => .number x origin
  | .bool b => .bool b origin
  | .moment s => .text s origin
  | .list items => .list (ofValues origin items) (some origin)
  | .table fields => .table (ofFields origin fields) (some origin)

/-- Values of a settings file. -/
def ofValues (origin : String) : List Toml.Value → List Setting
  | [] => []
  | v :: rest => ofValue origin v :: ofValues origin rest

/-- Named values of a settings file. -/
def ofFields (origin : String) : List (String × Toml.Value) → List (String × Setting)
  | [] => []
  | (name, v) :: rest => (name, ofValue origin v) :: ofFields origin rest

end

/-! ## Members -/

/-- The named settings of a table, none for any other setting. -/
def fields : Setting → List (String × Setting)
  | .table fields _ => fields
  | _ => []

/-- Where the setting came from, if it is a table. -/
def tableOrigin : Setting → Option String
  | .table _ origin => origin
  | _ => none

/-- The member of a name. -/
def member? (name : String) (s : Setting) : Option Setting :=
  (s.fields.find? (fun f => f.1 == name)).map Prod.snd

/-- The named settings with another one for a name. -/
def putField (name : String) (v : Setting) : List (String × Setting) → List (String × Setting)
  | [] => [(name, v)]
  | f :: rest => if f.1 = name then (name, v) :: rest else f :: putField name v rest

/-- The table with another member for a name; any other setting becomes a table. -/
def setMember (s : Setting) (name : String) (v : Setting) : Setting :=
  .table (putField name v s.fields) s.tableOrigin

/-- The list with another item at a place, made as long as it takes; any other setting becomes a
list. A place below zero counts from the end. -/
def setItem (index : Int) (change : Setting → Setting) (s : Setting) : Setting :=
  let (items, origin) :=
    match s with
    | .list items origin => (items, origin)
    | _ => ([], none)
  let i := if 0 ≤ index then index.toNat else items.length - index.natAbs
  let items := items ++ List.replicate (i + 1 - items.length) .nothing
  .list (items.modify i change) origin

/-! ## Laying settings -/

mutual

/-- **Lays a setting over the member of a name.** -/
def layMember (name : String) (below : Setting) : (above : Setting) → Setting
  | .table fields _ =>
    let lower := Text.lowercase name
    below.setMember lower (layFields ((below.member? lower).getD empty) fields)
  | above => below.setMember (Text.lowercase name) above

/-- Lays named settings over the members of their names. -/
def layFields (below : Setting) : List (String × Setting) → Setting
  | [] => below
  | (name, above) :: rest => layFields (layMember name below above) rest

end

end Setting

/-! ## Paths of settings -/

/-- One step of a path of settings. -/
inductive SettingStep where
  /-- To the member of a name. -/
  | member (name : String)
  /-- To the item at a place. -/
  | item (index : Int)
deriving DecidableEq, Repr

/-- **A path of settings.** -/
structure SettingPath where
  /-- The name it starts with. -/
  start : String
  /-- The steps from there. -/
  steps : List SettingStep
deriving DecidableEq, Repr

namespace SettingPath

/-- A character of a name in a path. -/
def isNameChar (c : Char) : Bool := c.isAlphanum || c == ' ' || c == '_' || c == '-'

/-- Reads a place between square brackets, which may have white space around it. -/
def index? (cs : List Char) : Option Int :=
  let isGap (c : Char) : Bool := c == ' ' || c == '\t'
  let digits := ((cs.dropWhile isGap).reverse.dropWhile isGap).reverse
  if digits.head? = some '+' then none
  else (Text.integer? digits).filter fitsInteger

/-- Reads one step. -/
def step? : List Char → Option (SettingStep × List Char)
  | '.' :: cs =>
    match cs.takeWhile isNameChar with
    | [] => none
    | name => some (.member (String.ofList name), cs.dropWhile isNameChar)
  | '[' :: cs =>
    match cs.dropWhile (· != ']') with
    | [] => none
    | _ :: rest => (index? (cs.takeWhile (· != ']'))).map (fun i => (.item i, rest))
  | _ => none

/-- Reads steps. -/
def steps? (cs : List Char) : Option (List SettingStep) :=
  if cs.isEmpty then some []
  else
    match step? cs with
    | none => none
    | some (step, rest) =>
      if _h : rest.length < cs.length then (steps? rest).map (step :: ·) else none
termination_by cs.length

/-- **Reads a path.** -/
def read? (key : String) : Option SettingPath :=
  match key.toList.takeWhile isNameChar with
  | [] => none
  | start => (steps? (key.toList.dropWhile isNameChar)).map (⟨String.ofList start, ·⟩)

/-- Lays a setting over what steps lead to. -/
def layBelow (above : Setting) : (steps : List SettingStep) → Setting → Setting
  | [], _ => above
  | [.member name], here => Setting.layMember name here above
  | .member name :: steps, here =>
    here.setMember name (layBelow above steps ((here.member? name).getD .nothing))
  | .item i :: steps, here => here.setItem i (layBelow above steps)

/-- Lays a setting over what a path leads to. -/
def lay (above : Setting) (path : SettingPath) (root : Setting) : Setting :=
  match path.steps with
  | [] => Setting.layMember path.start root above
  | steps =>
    root.setMember path.start
      (layBelow above steps ((root.member? path.start).getD .nothing))

end SettingPath

/-- **Lays a setting over what a key names.** -/
def Setting.layKey (root : Setting) (key : String) (above : Setting) : Setting :=
  match SettingPath.read? key with
  | some path => path.lay above root
  | none => layMember key root above

end CsdlAudit
