import SymbolAtlas.Json.Basic
import SymbolAtlas.Report.Failure

/-!
# Responses

What a command answers to other programs: an object with a status, a code and a message, and either
the result or suggestions. To people it answers with lines that a mark stands in front of.
-/

set_option autoImplicit false

namespace SymbolAtlas.Report

/-- An answer to another program. -/
structure Response where
  isSuccess : Bool
  code : String
  message : String
  data : Option Json := none
  suggestions : Option (List String) := none
  exitStatus : ExitStatus

namespace Response

/-- The answer with a result. -/
def success (data : Json) : Response :=
  { isSuccess := true
    code := "OK"
    message := "Operation completed successfully"
    data := some data
    exitStatus := .success }

/-- The answer that something is not found. -/
def notFound (what name : String) : Response :=
  { isSuccess := false
    code := "NOT_FOUND"
    message := what ++ " '" ++ name ++ "' not found"
    suggestions := some
      ["Check the spelling and the enclosing scopes",
        "Run 'docgraph build <records>' to list registered entities"]
    exitStatus := .notFound }

/-- The answer to a failure. -/
def ofFailure (f : Failure) : Response :=
  { isSuccess := false
    code := f.code
    message := f.message
    suggestions := some f.suggestions
    exitStatus := f.exitStatus }

/-- The answer as an object. Missing parts are left out. -/
def toJson (r : Response) : Json :=
  .record (
    [("status", .str (if r.isSuccess then "success" else "error")),
      ("code", .str r.code),
      ("message", .str r.message)]
    ++ (r.data.map fun data => ("data", data)).toList
    ++ (r.suggestions.map fun suggestions =>
      ("error", Json.record [("suggestions", .list .str suggestions)])).toList
    ++ [("exit_code", .nat r.exitStatus.code)])

end Response

/-- A line about something that went well. -/
def successLine (text : String) : String :=
  "✓ " ++ text

/-- A line about something that went wrong. -/
def errorLine (text : String) : String :=
  "✗ " ++ text

/-- A line about something to look at. -/
def warningLine (text : String) : String :=
  "⚠ " ++ text

end SymbolAtlas.Report
