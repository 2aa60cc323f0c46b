import SymbolAtlas.Fault

/-!
# Failures

Why a command cannot do its work, with the status it exits with and what may help.
-/

set_option autoImplicit false

namespace SymbolAtlas.Report

/-- The status a command exits with. -/
inductive ExitStatus where
  | success
  | generalError
  | notFound
  | decodeError
  | fileError
  | configError
deriving DecidableEq, Repr

namespace ExitStatus

/-- The number of a status. -/
def code : ExitStatus → Nat
  | success => 0
  | generalError => 1
  | notFound => 3
  | decodeError => 4
  | fileError => 5
  | configError => 6

/-- What a status means. -/
def description : ExitStatus → String
  | success => "Success"
  | generalError => "General error"
  | notFound => "Not found"
  | decodeError => "Decode error"
  | fileError => "I/O error"
  | configError => "Configuration error"

/-- The status of a lookup. -/
def ofLookup (isFound : Bool) : ExitStatus :=
  if isFound then success else notFound

end ExitStatus

/-- Why a command cannot do its work. -/
inductive Failure where
  | fileRead (path cause : String)
  | fileWrite (path cause : String)
  | decode (path reason : String)
  | entityNotFound (name : String)
  | memberNotFound (entity name : String)
  | config (reason : String)
  | refused (fault : Fault)
  | general (text : String)
deriving DecidableEq, Repr

namespace Failure

/-- A failure with what was being done. -/
def inContext (context cause : String) : Failure :=
  general (context ++ ": " ++ cause)

/-- A failure with the file that was being worked on. -/
def atPath (path cause : String) : Failure :=
  general ("Error processing '" ++ path ++ "': " ++ cause)

/-- The text of a failure. -/
def message : Failure → String
  | fileRead path cause => "Failed to read file '" ++ path ++ "': " ++ cause
  | fileWrite path cause => "Failed to write file '" ++ path ++ "': " ++ cause
  | decode path reason =>
    "Failed to decode declaration records from '" ++ path ++ "': " ++ reason
  | entityNotFound name =>
    "Entity '" ++ name ++ "' not found. Check the qualified name (e.g. 'ns::Class')."
  | memberNotFound entity name =>
    "Member '" ++ name ++ "' not found in '" ++ entity ++ "' or any of its base classes"
  | config reason => "Invalid configuration: " ++ reason
  | refused fault => fault.message
  | general text => text

/-- The text of a failure with what caused it, which is told once more. -/
def trace (f : Failure) : String :=
  match f with
  | fileRead _ cause | fileWrite _ cause => f.message ++ ": " ++ cause
  | _ => f.message

/-- The code of a failure for other programs. -/
def code : Failure → String
  | fileRead .. => "FILE_READ_ERROR"
  | fileWrite .. => "FILE_WRITE_ERROR"
  | decode .. => "DECODE_ERROR"
  | entityNotFound .. => "ENTITY_NOT_FOUND"
  | memberNotFound .. => "MEMBER_NOT_FOUND"
  | config .. => "CONFIG_ERROR"
  | refused .. => "MODEL_ERROR"
  | general .. => "GENERAL_ERROR"

/-- What may help. -/
def suggestions : Failure → List String
  | fileRead .. =>
    ["Check that the file exists and you have read permissions",
      "Ensure the file is not locked by another process"]
  | fileWrite .. =>
    ["Check that the target directory exists and is writable", "Check available disk space"]
  | decode .. =>
    ["The records file must be a JSON object with an 'entities' array",
      "Each entity needs at least 'name' and 'kind'"]
  | entityNotFound .. =>
    ["Use the fully qualified name, including enclosing namespaces",
      "Run 'docgraph build <records>' to list the registered entities"]
  | memberNotFound .. =>
    ["Run 'docgraph members <records> <entity>' to list reachable members"]
  | config .. =>
    ["Run 'docgraph init --force' to regenerate the settings file",
      "Check DG_* environment variables for typos"]
  | refused .. | general .. => []

/-- The status a command exits with because of a failure. -/
def exitStatus : Failure → ExitStatus
  | entityNotFound .. | memberNotFound .. => .notFound
  | decode .. => .decodeError
  | fileRead .. | fileWrite .. => .fileError
  | config .. => .configError
  | refused .. | general .. => .generalError

end Failure

end SymbolAtlas.Report
