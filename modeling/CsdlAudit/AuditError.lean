import CsdlAudit.Directory.Glob
import CsdlAudit.Document.Attributes
import CsdlAudit.TypeReference

/-!
# Errors of an audit

An `AuditError` is why a request could not be carried out at all. What is found wrong in a file that
can be read belongs to the verdict on the file.
-/

namespace CsdlAudit

/-- **Why a request could not be carried out.** -/
inductive AuditError where
  /-- There is no such directory. -/
  | directoryNotFound (path : String)
  /-- There is something else in place of the directory. -/
  | notADirectory (path : String)
  /-- A file pattern cannot be read. -/
  | invalidPattern (pattern : String) (fault : GlobFault)
  /-- A file cannot be read as text. -/
  | unreadable (reason : String)
  /-- The blocks of a document cannot be read. -/
  | document (file : String) (cause : Document.DocumentError)
  /-- Another reader of blocks gave up. -/
  | extraction (file reason : String)
  /-- A text is no type reference. -/
  | malformedType (reference reason : String)
deriving DecidableEq, Repr

/-- The kinds of error that a caller tells apart. -/
inductive ErrorKind where
  /-- There is no such directory. -/
  | directoryNotFound
  /-- There is something else in place of the directory. -/
  | notADirectory
  /-- A file pattern cannot be read. -/
  | invalidPattern
  /-- A file cannot be read. -/
  | unreadable
  /-- The markup of a document is broken. -/
  | markup
  /-- The blocks of a document cannot be read. -/
  | extraction
  /-- A text is no type reference. -/
  | malformedType
deriving DecidableEq, Repr

/-- The fault of a document in words. -/
def Document.DocumentError.message : Document.DocumentError → String
  | .markup fault => fault.message
  | .malformed fault => "error while parsing attribute: " ++ fault.message
  | .reference fault => fault.message
  | .missing element name => "<" ++ element ++ "> is missing required attribute '" ++ name ++ "'"

/-- The words in which a reader of blocks gives up on a file. -/
def extractionMessage (file reason : String) : String :=
  "Failed to extract schema from " ++ file ++ ": " ++ reason

namespace AuditError

/-- The kind of an error. -/
def kind : AuditError → ErrorKind
  | .directoryNotFound _ => .directoryNotFound
  | .notADirectory _ => .notADirectory
  | .invalidPattern _ _ => .invalidPattern
  | .unreadable _ => .unreadable
  | .document _ (.missing _ _) => .extraction
  | .document _ _ => .markup
  | .extraction _ _ => .extraction
  | .malformedType _ _ => .malformedType

/-- **The error in words.** -/
def message : AuditError → String
  | .directoryNotFound path => "Directory does not exist: " ++ path
  | .notADirectory path => "Path is not a directory: " ++ path
  | .invalidPattern pattern fault =>
    "Invalid file pattern '" ++ pattern ++ "': " ++ fault.message
  | .unreadable reason => "IO error: " ++ reason
  | .document file (.missing element name) =>
    extractionMessage file (Document.DocumentError.message (.missing element name))
  | .document _ cause => "XML error: " ++ cause.message
  | .extraction file reason => extractionMessage file reason
  | .malformedType reference reason => malformedMessage reference reason

/-- Whether the directory itself could not be read. -/
def isFileAccess : AuditError → Bool
  | .directoryNotFound _ | .notADirectory _ => true
  | _ => false

end AuditError

end CsdlAudit
