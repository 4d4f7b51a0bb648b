import CsdlAudit.Double
import CsdlAudit.Text.Quoted

/-!
# Errors of a configuration

A configuration cannot be loaded because a file is missing or malformed, because a value cannot be
taken for what a setting wants, or because a setting has the wrong shape. Errors about single values
carry the key of the setting and where the value came from.
-/

namespace CsdlAudit

/-- **What was found in the place of a setting.** -/
inductive Found where
  /-- A truth value. -/
  | bool (b : Bool)
  /-- A whole number. -/
  | integer (n : Int)
  /-- A number with a fraction. -/
  | number (x : Double)
  /-- A text. -/
  | text (s : String)
  /-- A list. -/
  | list
  /-- A table. -/
  | table
  /-- Nothing. -/
  | nothing
deriving DecidableEq, Repr

/-- What was found, in words. -/
def Found.words : Found → String
  | .bool true => "boolean `true`"
  | .bool false => "boolean `false`"
  | .integer n => "integer `" ++ toString n ++ "`"
  | .number x => "floating point `" ++ x.displayPointed ++ "`"
  | .text s => "string " ++ Text.quoted s
  | .list => "sequence"
  | .table => "map"
  | .nothing => "unit value"

/-- **What a setting wants in the place of its value.** -/
inductive Wanted where
  /-- A natural number. -/
  | count
  /-- A truth value. -/
  | flag
  /-- A text. -/
  | text
deriving DecidableEq, Repr

/-- What a setting wants, in words. -/
def Wanted.words : Wanted → String
  | .count => "an integer"
  | .flag => "a boolean"
  | .text => "a string"

/-- **Why a configuration cannot be loaded.** -/
inductive ConfigError where
  /-- There is no file at a path. -/
  | fileNotFound (path : String)
  /-- The name of a file does not say that it is a settings file. -/
  | unknownFormat (path : String)
  /-- The text of a file is no settings file. -/
  | malformedFile (path : String)
  /-- A count is below zero. -/
  | negative (n : Int) (key : String) (origin : Option String)
  /-- A value cannot be taken for what the setting wants. -/
  | unsuited (found : Found) (wanted : Wanted) (key : String) (origin : Option String)
  /-- A list is wanted. -/
  | notAList (found : Found)
  /-- A section is wanted. -/
  | notASection (found : Found) (name : String)
  /-- There is no such policy. -/
  | unknownPolicy (name : String)
  /-- A policy is given neither by its name nor by a table with one field. -/
  | policyShape
deriving DecidableEq, Repr

/-- The kinds of error that a caller tells apart. -/
inductive ConfigErrorKind where
  /-- A value cannot be taken for what a setting wants. -/
  | value
  /-- A setting has the wrong shape. -/
  | shape
  /-- A file is missing. -/
  | missingFile
  /-- A file is malformed. -/
  | malformedFile
deriving DecidableEq, Repr

namespace ConfigError

/-- The kind of an error. -/
def kind : ConfigError → ConfigErrorKind
  | .fileNotFound _ | .unknownFormat _ => .missingFile
  | .malformedFile _ => .malformedFile
  | .negative .. | .unsuited .. => .value
  | .notAList _ | .notASection .. | .unknownPolicy _ | .policyShape => .shape

/-- Where a value stands. -/
def place (key : String) (origin : Option String) : String :=
  let placed := if key = "" then "" else " for key `" ++ key ++ "`"
  match origin with
  | some o => placed ++ " in " ++ o
  | none => placed

/-- **The error in words.** -/
def message : ConfigError → String
  | .fileNotFound path => "configuration file \"" ++ path ++ "\" not found"
  | .unknownFormat path =>
    "configuration file \"" ++ path ++ "\" is not of a registered file format"
  | .malformedFile path => "TOML parse error in " ++ path
  | .negative n key origin =>
    "invalid type: 64-bit integer `" ++ toString n ++
      "`, expected an unsigned 64 bit or less integer" ++ place key origin
  | .unsuited found wanted key origin =>
    "invalid type: " ++ found.words ++ ", expected " ++ wanted.words ++ place key origin
  | .notAList found => "invalid type: " ++ found.words ++ ", expected a sequence"
  | .notASection found name => "invalid type: " ++ found.words ++ ", expected struct " ++ name
  | .unknownPolicy name => "enum DefinitionPolicy does not have variant constructor " ++ name
  | .policyShape =>
    "value of enum DefinitionPolicy should be represented by either string or table with " ++
      "exactly one key"

/-- The key of a setting below a part of its path. -/
def joinKey (part key : String) : String :=
  if key = "" ∨ key.toList.head? = some '[' then part ++ key else part ++ "." ++ key

/-- The error as it is seen from one level above. -/
def below (part : String) : ConfigError → ConfigError
  | .negative n key origin => .negative n (joinKey part key) origin
  | .unsuited found wanted key origin => .unsuited found wanted (joinKey part key) origin
  | e => e

end ConfigError

end CsdlAudit
