import CsdlAudit.Config.Decode

/-!
# Arguments of the command line

The arguments name one directory and give values to options. The value of an option is the next
argument, or stands in the same one: behind a `=`, or right behind a short name. Behind `--` there
are no more options. Each option is given at most once.
-/

namespace CsdlAudit.CommandLine

/-- **How the result is shown.** -/
inductive Format where
  /-- As lines of text. -/
  | text
  /-- As a JSON value. -/
  | json
deriving DecidableEq, Repr

/-- **An option.** -/
inductive Flag where
  /-- The pattern of file names. -/
  | pattern
  /-- How many files are validated at a time. -/
  | concurrency
  /-- The settings file. -/
  | config
  /-- How the result is shown. -/
  | format
  /-- The file for the drawing of the graph. -/
  | drawing
  /-- The element whose impact is shown. -/
  | impact
deriving DecidableEq, Repr

namespace Flag

/-- All options. -/
def all : List Flag := [.pattern, .concurrency, .config, .format, .drawing, .impact]

/-- The long name of an option. -/
def longName : Flag → String
  | .pattern => "pattern"
  | .concurrency => "concurrency"
  | .config => "config"
  | .format => "format"
  | .drawing => "dot"
  | .impact => "impact"

/-- The short name of an option that has one. -/
def shortName? : Flag → Option Char
  | .pattern => some 'p'
  | .concurrency => some 'c'
  | .format => some 'f'
  | _ => none

end Flag

/-- **What the arguments ask for.** -/
structure Request where
  /-- The directory. -/
  directory : Option String
  /-- The pattern of file names. -/
  pattern : Option String
  /-- How many files are validated at a time. -/
  concurrency : Option Nat
  /-- The settings file. -/
  config : Option String
  /-- How the result is shown. -/
  format : Option Format
  /-- The file for the drawing of the graph. -/
  drawing : Option String
  /-- The element whose impact is shown. -/
  impact : Option String
deriving DecidableEq, Repr

/-- Why arguments ask for nothing. -/
inductive Refusal where
  /-- They ask how they are to be used. -/
  | help
  /-- They are not used as they should be. -/
  | misuse
deriving DecidableEq, Repr

namespace Request

/-- The request of no arguments. -/
def empty : Request := ⟨none, none, none, none, none, none, none⟩

/-- A value for what has none yet. -/
def once {α : Type} (old : Option α) (value : Option α) : Except Refusal (Option α) :=
  match old, value with
  | none, some a => .ok (some a)
  | _, _ => .error .misuse

/-- A path, which is not empty. -/
def path? (s : String) : Option String := if s = "" then none else some s

/-- The format of a name. -/
def format? (s : String) : Option Format :=
  if s = "text" then some .text else if s = "json" then some .json else none

/-- The request with a directory. -/
def withDirectory (r : Request) (s : String) : Except Refusal Request := do
  return { r with directory := ← once r.directory (path? s) }

/-- The request with a value for an option. -/
def withFlag (r : Request) (flag : Flag) (s : String) : Except Refusal Request :=
  match flag with
  | .pattern => do return { r with pattern := ← once r.pattern (some s) }
  | .concurrency => do
    return { r with concurrency := ← once r.concurrency (Setting.writtenCount? s) }
  | .config => do return { r with config := ← once r.config (path? s) }
  | .format => do return { r with format := ← once r.format (format? s) }
  | .drawing => do return { r with drawing := ← once r.drawing (path? s) }
  | .impact => do return { r with impact := ← once r.impact (some s) }

end Request

/-! ## Reading -/

/-- **What one argument is.** -/
inductive Argument where
  /-- The mark behind which there are no more options. -/
  | noMoreFlags
  /-- An option whose value is the next argument. -/
  | flag (f : Flag)
  /-- An option with its value. -/
  | flagWith (f : Flag) (value : String)
  /-- The wish to know how the arguments are used. -/
  | help
  /-- An option that there is not. -/
  | unknown
  /-- A value. -/
  | value (s : String)
deriving DecidableEq, Repr

/-- An argument that starts with two marks. -/
def longArgument (body : String) : Argument :=
  let (name, value?) :=
    match Text.splitFirst '=' body with
    | some (name, value) => (name, some value)
    | none => (body, none)
  match Flag.all.find? (fun f => f.longName == name), value? with
  | some f, some value => .flagWith f value
  | some f, none => .flag f
  | none, none => if name = "help" then .help else .unknown
  | none, some _ => .unknown

/-- An argument that starts with one mark: a short name and what follows it. -/
def shortArgument (name : Char) (after : List Char) : Argument :=
  match Flag.all.find? (fun f => f.shortName? == some name) with
  | some f =>
    match after with
    | [] => .flag f
    | '=' :: value => .flagWith f (String.ofList value)
    | value => .flagWith f (String.ofList value)
  | none => if name = 'h' then .help else .unknown

/-- **What an argument is**, as long as there may be options. -/
def argument (s : String) : Argument :=
  match s.toList with
  | ['-', '-'] => .noMoreFlags
  | '-' :: '-' :: body => longArgument (String.ofList body)
  | '-' :: name :: after => shortArgument name after
  | _ => .value s

/-- Reads arguments behind which there are no more options. -/
def readValues (r : Request) : List String → Except Refusal Request
  | [] => .ok r
  | s :: rest => do readValues (← r.withDirectory s) rest

/-- Reads arguments. -/
def readArguments (r : Request) : List String → Except Refusal Request
  | [] => .ok r
  | s :: rest =>
    match argument s with
    | .noMoreFlags => readValues r rest
    | .flagWith f value => do readArguments (← r.withFlag f value) rest
    | .help => .error .help
    | .unknown => .error .misuse
    | .value s => do readArguments (← r.withDirectory s) rest
    | .flag f =>
      match rest with
      | [] => .error .misuse
      | value :: rest =>
        match argument value with
        | .value value => do readArguments (← r.withFlag f value) rest
        | _ => .error .misuse

/-- **Reads the arguments of a command line**: a directory and a request. -/
def request (args : List String) : Except Refusal (String × Request) := do
  let r ← readArguments .empty args
  match r.directory with
  | some directory => .ok (directory, r)
  | none => .error .misuse

end CsdlAudit.CommandLine
