import SymbolAtlas.Build.Run
import SymbolAtlas.CommandLine.Arguments
import SymbolAtlas.CommandLine.FileTree
import SymbolAtlas.Declaration.Decode
import SymbolAtlas.Json.Printer
import SymbolAtlas.Report.Data
import SymbolAtlas.Report.Response
import SymbolAtlas.Report.Tables
import SymbolAtlas.Settings.Environment
import SymbolAtlas.Settings.LogFilter
import SymbolAtlas.TagFile

/-!
# Carrying out commands

Each command answers with a status and with what it prints. Files are reached through a host only.
-/

set_option autoImplicit false

namespace SymbolAtlas.CommandLine

open Report

/-- What a command answers. -/
structure Outcome where
  exitCode : Nat := 0
  out : String := ""
  err : String := ""
  notices : List Notice := []
deriving DecidableEq

namespace Outcome

/-- Lines as text. -/
def text (lines : List String) : String :=
  String.join (lines.map fun line => line ++ "\n")

/-- An answer to people. -/
def ofLines (lines : List String) : Outcome :=
  { out := text lines }

/-- An answer to another program. -/
def ofResponse (r : Response) : Outcome :=
  { exitCode := r.exitStatus.code, out := text [r.toJson.renderOpen] }

/-- The answer to a failure. -/
def ofFailure (json : Bool) (f : Failure) : Outcome :=
  if json then ofResponse (.ofFailure f)
  else
    { exitCode := f.exitStatus.code
      err := text (errorLine f.trace :: f.suggestions.map fun suggestion => "  " ++ suggestion) }

/-- The answer with those notices only that a log filter lets through. -/
def filtered (o : Outcome) (filter : String) : Outcome :=
  { o with notices := o.notices.filter fun n => LogFilter.admits filter "docgraph" n.severity }

end Outcome

variable {m : Type → Type} [Monad m]

/-- The directory that holds the settings of everything below the directory it is in. -/
def settingsDirectory : String := ".docgraph"

/-- The first of several paths that leads to a file. -/
def firstFile? (host : Host m) : List String → m (Option String)
  | [] => return none
  | path :: rest => do
    if ← host.isFile path then return some path else firstFile? host rest

/-- The directory of settings that is nearest to the working directory. -/
def nearestSettings? (host : Host m) : List String → m (Option String)
  | [] => return none
  | dir :: rest => do
    let path := dir ++ "/" ++ settingsDirectory
    if ← host.isDirectory path then return some path else nearestSettings? host rest

/-- The file with the settings: the one that is asked for, which is looked for in the working
directory and the directories around it, or that in the nearest directory of settings. -/
def settingsFile? (host : Host m) (asked : Option String) : m (Option String) := do
  let ancestors ← host.ancestors
  match asked with
  | some path =>
    if path.toList.head? == some '/' then firstFile? host [path]
    else firstFile? host (ancestors.map fun dir => dir ++ "/" ++ path)
  | none =>
    match ← nearestSettings? host ancestors with
    | none => return none
    | some dir => firstFile? host [dir ++ "/settings.toml"]

/-- The settings that hold. -/
def loadSettings (host : Host m) (environment : List (String × String)) (asked : Option String) :
    m (Except Failure Settings) := do
  let file ←
    match ← settingsFile? host asked with
    | none => pure none
    | some path =>
      match ← host.read path with
      | .ok text => pure (some text)
      | .error fault => return .error (.config fault.message)
  match Settings.load? file environment with
  | some settings => return .ok settings
  | none => return .error (.config "a setting is not of its type or a text cannot be read")

/-- Reads the declarations in a file. -/
def readDocument (host : Host m) (path : String) : m (Except Failure Document) := do
  match ← host.read path with
  | .error fault => return .error (.fileRead path fault.message)
  | .ok text =>
    match Document.read? text with
    | some document => return .ok document
    | none => return .error (.decode path "the text is not a document of declarations")

/-- Builds an atlas from the declarations in a file. -/
def buildFrom (host : Host m) (settings : Settings) (path : String) :
    m (Except Failure (Noted (Atlas × Build.Summary))) := do
  match ← readDocument host path with
  | .error failure => return .error failure
  | .ok document => return .ok (Build.run settings.options document)

/-- Writes a file with the settings that hold when nothing is set. -/
def runInit (host : Host m) (force : Bool) : m Outcome := do
  let dir := "./" ++ settingsDirectory
  let path := dir ++ "/settings.toml"
  let failed (reason : String) : Outcome := .ofFailure false (.config reason)
  let isPresent ← do
    if ← host.isFile path then pure true else host.isDirectory path
  if !force && isPresent then
    return failed "Configuration file already exists. Use --force to overwrite"
  match ← host.makeDirectory dir with
  | .error fault => return failed fault.message
  | .ok () =>
    match ← host.write path Settings.template with
    | .error fault => return failed fault.message
    | .ok () =>
      return .ofLines [
        successLine ("Created configuration file at: " ++ path),
        "Edit this file to customize your settings."]

/-- Shows the settings that hold. -/
def runConfig (settings : Settings) : Outcome :=
  let head := ["Current Configuration:", String.ofList (List.replicate 50 '=')]
  match settings.render? with
  | some text => .ofLines (head ++ [text])
  | none =>
    let failure :=
      Failure.inContext "Failed to render settings" "out-of-range value for u64 type"
    { Outcome.ofFailure false failure with out := Outcome.text head }

/-- What a build is answered with. -/
def buildOutcome (summary : Build.Summary) (tagFile : Option String) (json : Bool) : Outcome :=
  if json then
    let message := "Built " ++ toString summary.entities ++ " entities"
    .ofResponse { Response.success (summaryData summary) with message }
  else
    .ofLines (
      [(summaryTable summary).render]
      ++ (tagFile.map fun path => successLine ("Tag file written to " ++ path)).toList
      ++ if 0 < summary.unresolvedBases then
          [warningLine (toString summary.unresolvedBases ++ " base classes could not be resolved")]
        else [])

/-- Writes the tag file of an atlas if one is asked for. -/
def writeTagFile (host : Host m) (a : Atlas) : Option String → m (Except Failure Unit)
  | none => return .ok ()
  | some path => do
    match ← host.write path (TagFile.render a) with
    | .ok () => return .ok ()
    | .error fault => return .error (.fileWrite path fault.message)

/-- Builds an atlas and writes its tag file if one is asked for. -/
def runBuild (host : Host m) (settings : Settings) (records : String) (tagFile : Option String)
    (json : Bool) : m Outcome := do
  match ← buildFrom host settings records with
  | .error failure => return .ofFailure json failure
  | .ok built =>
    let (atlas, summary) := built.value
    let outcome : Outcome ← do
      match ← writeTagFile host atlas tagFile with
      | .ok () => pure (buildOutcome summary tagFile json)
      | .error failure => pure (.ofFailure json failure)
    return { outcome with notices := built.notices }

/-- Builds an atlas and answers a question about one of its entities. -/
def runQuery (host : Host m) (settings : Settings) (records entity : String) (json : Bool)
    (answer : Atlas → EntityId → Noted Outcome) : m Outcome := do
  match ← buildFrom host settings records with
  | .error failure => return .ofFailure json failure
  | .ok built =>
    let (atlas, _) := built.value
    match atlas.find? entity with
    | none =>
      return { Outcome.ofFailure json (.entityNotFound entity) with notices := built.notices }
    | some id =>
      let answered := answer atlas id
      return { answered.value with notices := built.notices ++ answered.notices }

/-- The roster of a class. -/
def membersOutcome (json : Bool) (a : Atlas) (id : EntityId) : Outcome :=
  if json then .ofResponse (.success (membersData a id))
  else
    .ofLines [
      a.kindWord id ++ " " ++ a.displayName id true,
      (membersTable a id).render,
      toString (a.inheritedCount id) ++ " inherited"]

/-- The relations of a class. -/
def hierarchyOutcome (json : Bool) (a : Atlas) (id : EntityId) : Outcome :=
  if json then .ofResponse (.success (hierarchyData a id))
  else .ofLines [a.displayName id true, (hierarchyTable a id).render]

/-- The member that a name means in a class. -/
def lookupOutcome (json : Bool) (entity member : String) (a : Atlas) (id : EntityId) :
    Noted Outcome := do
  let found ← a.memberByName id member
  match found.bind fun found => (a.member? found).map fun m => Found.ofMember a m found with
  | some found => return if json then .ofResponse (.success found.data) else .ofLines found.lines
  | none =>
    let line := "No member '" ++ member ++ "' reachable from '" ++ entity ++ "'"
    return if json then .ofResponse (.notFound "Member" member)
      else
        { exitCode := (ExitStatus.ofLookup false).code
          err := Outcome.text [warningLine line] }

/-- Carries out a command. -/
def Command.run (host : Host m) (settings : Settings) : Command → m Outcome
  | .init force => runInit host force
  | .config => return runConfig settings
  | .build records tagFile json => runBuild host settings records tagFile json
  | .members records entity json =>
    runQuery host settings records entity json fun a id => pure (membersOutcome json a id)
  | .hierarchy records entity json =>
    runQuery host settings records entity json fun a id => pure (hierarchyOutcome json a id)
  | .lookup records entity member json =>
    runQuery host settings records entity json (lookupOutcome json entity member)

/-- The text of the log filter: a variable that can be read as one wins over the settings. -/
def logFilter (environment : List (String × String)) (settings : Settings) : String :=
  let given := environment.lookup "RUST_LOG"
  (given.filter fun text => (LogFilter.read? text).isSome).getD settings.logging.level

/-- Carries out what a command line asks for. -/
def run (host : Host m) (environment : List (String × String)) (words : List String) :
    m Outcome := do
  match Invocation.read words with
  | .error .usage => return { exitCode := 2, err := usage }
  | .error .help => return { out := usage }
  | .error .version => return { out := "docgraph 0.1.0\n" }
  | .ok invocation =>
    match ← loadSettings host environment invocation.settingsFile with
    | .error failure => return .ofFailure invocation.command.json failure
    | .ok settings =>
      let outcome ← invocation.command.run host settings
      return outcome.filtered (logFilter environment settings)

end SymbolAtlas.CommandLine
