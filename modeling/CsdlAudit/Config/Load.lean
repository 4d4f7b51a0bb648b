import CsdlAudit.Config.Decode
import CsdlAudit.Directory.Tree
import CsdlAudit.Text.Replaced
import CsdlAudit.Toml.Document

/-!
# Loading a configuration

The settings of a configuration come in layers: the settings files in their usual places, the
settings file that is asked for, and the environment variables whose names begin with
`CSDL_CONFLICTS__`. A later layer counts more.
-/

namespace CsdlAudit

/-- Named variables of the environment. -/
abbrev Variables := List (String × String)

/-- The value of a variable. -/
def Variables.value? (name : String) (vars : Variables) : Option String :=
  (vars.find? (fun v => v.1 == name)).map Prod.snd

/-! ## Settings files -/

/-- A path without parts that lead nowhere. -/
def tidyPath (path : String) : String :=
  if path.toList.head? = some '/' then path else Text.join "/" (Tree.plainParts path)

/-- The path with another ending behind its last name, unless it has no last name. -/
def withEnding? (path ending : String) : Option String :=
  match (Tree.plainParts path).getLast? with
  | none => none
  | some last =>
    if last = ".." ∨ last = "/" then none
    else
      let rooted := path.toList.head? = some '/'
      let names := (Tree.plainParts path).filter (· != "/")
      some ((if rooted then "/" else "") ++ Text.join "/" names ++ ending)

/-- Whether the last name of a path says that it is a settings file. -/
def namesSettings (path : String) : Bool :=
  match Text.splitLast '.' ((Tree.plainParts path).getLast?.getD "") with
  | some (stem, ending) => stem != "" && ending == "toml"
  | none => false

/-- The settings file that a path names: the file itself, or the one with the usual ending. -/
def settingsFile (root : Tree) (path : String) : Except ConfigError String :=
  if root.isFile path then
    if namesSettings path then .ok path else .error (.unknownFormat path)
  else
    match (withEnding? path ".toml").filter root.isFile with
    | some file => .ok file
    | none => .error (.fileNotFound path)

/-- The text of a file. -/
def FileContent.textReplacing : FileContent → String
  | .text s => s
  | .bytes bs => Text.decodeReplacing bs

/-- Lays named values of a settings file over settings. -/
def layValues (origin : String) (root : Setting) (fields : List (String × Toml.Value)) : Setting :=
  fields.foldl (fun root f => root.layKey f.1 (.ofValue origin f.2)) root

/-- Lays a settings file over settings. -/
def layFile (tree : Tree) (root : Setting) (file : String) : Except ConfigError Setting :=
  match tree.content? file with
  | none => .error (.fileNotFound file)
  | some content =>
    match Toml.read? content.textReplacing with
    | some fields => .ok (layValues (tidyPath file) root fields)
    | none => .error (.malformedFile (tidyPath file))

/-- The usual places of settings files. -/
def usualPlaces : List String :=
  ["csdl-conflicts.toml", ".csdl-conflicts.toml", "config/csdl-conflicts.toml"]

/-- The folder with the settings of a user. -/
def settingsFolder? (vars : Variables) : Option String :=
  match (vars.value? "XDG_CONFIG_HOME").filter (fun p => p.toList.head? == some '/') with
  | some folder => some folder
  | none => ((vars.value? "HOME").filter (· != "")).map (· ++ "/.config")

/-- The settings file of a user, if there is one. -/
def userPlace? (tree : Tree) (vars : Variables) : Option String :=
  ((settingsFolder? vars).map (· ++ "/csdl-conflicts/csdl-conflicts.toml")).filter
    (fun p => (tree.at? p).isSome)

/-- Lays a settings file over settings if it is there. -/
def layIfThere (tree : Tree) (root : Setting) (path : String) : Except ConfigError Setting :=
  match settingsFile tree path with
  | .ok file => layFile tree root file
  | .error _ => .ok root

/-! ## Environment -/

/-- How the names of variables with settings begin, in lower case. -/
def variableStart : String := "csdl_conflicts__"

/-- The characters with a point in place of two underscores. -/
def dotted : List Char → List Char
  | '_' :: '_' :: cs => '.' :: dotted cs
  | c :: cs => c :: dotted cs
  | [] => []

/-- The setting that the text of a variable stands for. -/
def variableSetting (s : String) : Setting :=
  let origin := "the environment"
  let lower := Text.lowercase s
  if lower = "true" then .bool true origin
  else if lower = "false" then .bool false origin
  else
    match (Text.integer? s.toList).filter fitsInteger with
    | some n => .integer n origin
    | none =>
      match Double.read? s.toList with
      | some x => .number x origin
      | none => .text s origin

/-- Lays a variable over settings if it is one with a setting. -/
def layVariable (root : Setting) (v : String × String) : Setting :=
  match Text.afterStart? variableStart (Text.lowercase v.1) with
  | none => root
  | some key => root.layKey (String.ofList (dotted key.toList)) (variableSetting v.2)

/-! ## The whole configuration -/

/-- **Loads a configuration** from the usual places, the settings file at `path` if there is one,
and the environment. -/
def Config.load (tree : Tree) (vars : Variables) (path : Option String) :
    Except ConfigError Config := do
  let settings ← (usualPlaces ++ (userPlace? tree vars).toList).foldlM (layIfThere tree) .empty
  let settings ←
    match path with
    | none => .ok settings
    | some path => do layFile tree settings (← settingsFile tree path)
  (vars.foldl layVariable settings).config

end CsdlAudit
