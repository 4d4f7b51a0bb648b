import CsdlAudit.Double

/-!
# Values and growing tables

A value of a settings file is a text, a number, a truth value, a moment, or is made of others as a
list or a table. The entries of a file are given by paths, in several ways that must agree: a header
opens a table, another kind of header opens the next table of a list, and a path of several names in
front of a value makes tables on its way. A table that stands in a list, that was opened by a header
or that is a value is not extended by such a path, and no name is given twice.

An `Item` is an entry while the file is read; `Item.value` is what it stands for in the end.
-/

namespace CsdlAudit.Toml

/-- **A value.** -/
inductive Value where
  /-- A text. -/
  | text (s : String)
  /-- A whole number. -/
  | integer (n : Int)
  /-- A number with a fraction or an exponent. -/
  | number (x : Double)
  /-- A truth value. -/
  | bool (b : Bool)
  /-- A date, a time of day or both, in the one form that is written. -/
  | moment (s : String)
  /-- Values in order. -/
  | list (items : List Value)
  /-- Named values in order. -/
  | table (fields : List (String × Value))
deriving Inhabited, Repr

/-- **An entry while the file is read.** -/
inductive Item where
  /-- A value, which is not extended. -/
  | value (v : Value)
  /-- A table. It is `implied` until a header of its own opens it, and `dotted` if a path in front
  of a value made it. -/
  | table (implied dotted : Bool) (entries : List (String × Item))
  /-- Tables that are opened one after the other; the last one is open. -/
  | tables (each : List (List (String × Item)))
deriving Inhabited

/-- Named items in order. -/
abbrev Entries := List (String × Item)

namespace Entries

/-- The item of a name. -/
def item? (name : String) (es : Entries) : Option Item :=
  (es.find? (fun e => e.1 == name)).map Prod.snd

/-- The entries with another item for a name, behind the others if the name is new. -/
def put (name : String) (i : Item) : Entries → Entries
  | [] => [(name, i)]
  | e :: rest => if e.1 = name then (name, i) :: rest else e :: put name i rest

/-- Changes the last of some tables. -/
def changeLast (change : Entries → Option Entries) : List Entries → Option (List Entries)
  | [] => none
  | [es] => (change es).map (fun es => [es])
  | es :: rest => (changeLast change rest).map (es :: ·)

/-- **Changes the table that a path leads to.** Tables on the way are made if they are missing, and
are then `dotted` as told. A dotted path does not go through a table that has a header. -/
def within (dotted : Bool) (change : Bool → Entries → Option Entries) :
    (path : List String) → (here : Bool) → Entries → Option Entries
  | [], here, es => change here es
  | name :: path, _, es =>
    match item? name es with
    | none =>
      (within dotted change path dotted []).map
        (fun inner => put name (.table true dotted inner) es)
    | some (.value _) => none
    | some (.tables each) =>
      (changeLast (within dotted change path false) each).map
        (fun each => put name (.tables each) es)
    | some (.table implied here inner) =>
      if dotted && !implied then none
      else
        (within dotted change path here inner).map
          (fun inner => put name (.table implied here inner) es)

/-- Opens the table of a name. -/
def openTable (name : String) (_ : Bool) (es : Entries) : Option Entries :=
  match item? name es with
  | none => some (put name (.table false false []) es)
  | some (.table true false inner) => some (put name (.table false false inner) es)
  | _ => none

/-- Opens the next table in the list of a name. -/
def openNext (name : String) (_ : Bool) (es : Entries) : Option Entries :=
  match item? name es with
  | none => some (put name (.tables [[]]) es)
  | some (.tables each) => some (put name (.tables (each ++ [[]])) es)
  | _ => none

/-- Gives a value to a name that is behind a dotted path or not. -/
def give (behindPath : Bool) (name : String) (v : Value) (dotted : Bool) (es : Entries) :
    Option Entries :=
  if dotted == behindPath && (item? name es).isNone then some (put name (.value v) es) else none

/-- **Gives a value to what a path leads to.** -/
def assign (path : List String) (v : Value) (here : Bool) (es : Entries) : Option Entries :=
  match path.getLast? with
  | none => none
  | some name => within true (give (decide (1 < path.length)) name v) path.dropLast here es

end Entries

mutual

/-- What an item stands for. -/
def Item.toValue : Item → Value
  | .value v => v
  | .table _ _ entries => .table (fieldsOf entries)
  | .tables each => .list (tablesOf each)

/-- The named values that entries stand for. -/
def fieldsOf : List (String × Item) → List (String × Value)
  | [] => []
  | (name, i) :: rest => (name, i.toValue) :: fieldsOf rest

/-- The values that tables stand for. -/
def tablesOf : List (List (String × Item)) → List Value
  | [] => []
  | es :: rest => .table (fieldsOf es) :: tablesOf rest

end

end CsdlAudit.Toml
