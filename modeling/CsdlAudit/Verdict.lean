import CsdlAudit.Index
import CsdlAudit.Json

/-!
# The verdict on one file

A file is compliant until an error is found in it. Its errors are listed in the order in which they
are found, and once more by type.
-/

namespace CsdlAudit

/-- **What was found in one file.** -/
structure FileVerdict where
  /-- The file. -/
  fileName : String
  /-- Whether no error was found. -/
  compliant : Bool
  /-- The errors, in the order in which they were found. -/
  errors : List String
  /-- The warnings, in the order in which they were found. -/
  warnings : List String
  /-- The errors of each type, in the same order. -/
  errorsByType : Index String String
deriving DecidableEq

namespace FileVerdict

/-- The verdict on a file in which nothing was found. -/
def clean (fileName : String) : FileVerdict := ⟨fileName, true, [], [], .empty⟩

/-- The verdict with one more error. -/
def addError (v : FileVerdict) (type message : String) : FileVerdict :=
  { v with
    compliant := false
    errors := v.errors ++ [message]
    errorsByType := v.errorsByType.add type message }

/-- The verdict with one more warning. -/
def addWarning (v : FileVerdict) (message : String) : FileVerdict :=
  { v with warnings := v.warnings ++ [message] }

/-- The type of an error that kept a file from being judged. -/
def exceptionType : String := "exception"

/-- The verdict on a file that could not be judged. -/
def failed (fileName message : String) : FileVerdict :=
  (clean fileName).addError exceptionType message

/-- The JSON form of a verdict. -/
def toJson (v : FileVerdict) : Json :=
  .object [("file_name", .text v.fileName), ("compliant", .bool v.compliant),
    ("errors", .ofTexts v.errors), ("warnings", .ofTexts v.warnings),
    ("errors_by_type", .object (v.errorsByType.toList.map fun e => (e.1, .ofTexts e.2)))]

/-- Reads the errors by type. -/
def readErrorsByType (v : Json) : Option (Index String String) := do
  let fs ← v.fields?
  let entries ← fs.mapM (fun f => do return (f.1, ← Json.list? Json.text? f.2))
  return entries.foldl (fun m e => m.append e.1 e.2) .empty

/-- Reads a verdict. -/
def ofJson? (v : Json) : Option FileVerdict := do
  let fs ← v.fields?
  return ⟨← Json.required Json.text? "file_name" fs, ← Json.required Json.bool? "compliant" fs,
    ← Json.defaulted [] (Json.list? Json.text?) "errors" fs,
    ← Json.defaulted [] (Json.list? Json.text?) "warnings" fs,
    ← Json.defaulted .empty readErrorsByType "errors_by_type" fs⟩

end FileVerdict

end CsdlAudit
