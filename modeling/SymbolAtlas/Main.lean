import SymbolAtlas.CommandLine.Run

/-!
# The program

The outer layer of the command line: it reaches the file system, and prints what a command answers.
-/

set_option autoImplicit false

namespace SymbolAtlas.CommandLine

/-- What the system says about a file. -/
def faultOfSystem (e : IO.Error) : FileFault :=
  match e with
  | .noFileOrDirectory .. => .notFound
  | .alreadyExists .. => .alreadyThere
  | .inappropriateType _ code details =>
    if code == 20 then .notADirectory else if code == 21 then .isADirectory else .other details
  | e => .other (toString e)

/-- Does something that the system may refuse. -/
def attempt {α : Type} (act : IO α) : IO (Except FileFault α) := do
  match ← act.toBaseIO with
  | .ok value => return .ok value
  | .error e => return .error (faultOfSystem e)

/-- A directory as written and the directories around it, the innermost first. -/
def ancestorsOfText (dir : String) : List String :=
  FileTree.ancestors ((FileTree.parts dir).filter (· != ""))

/-- The file system as a host of commands. -/
def systemHost : Host IO where
  ancestors := do return ancestorsOfText (← IO.currentDir).toString
  isFile path := do
    let path := (← IO.currentDir) / path
    return (← path.pathExists) && !(← path.isDir)
  isDirectory path := do ((← IO.currentDir) / path).isDir
  read path := attempt (IO.FS.readFile path)
  write path content := attempt (IO.FS.writeFile path content)
  makeDirectory path := attempt (IO.FS.createDirAll path)

/-- The variables of the process. -/
def systemVariables : IO (List (String × String)) := do
  match ← (IO.FS.readFile "/proc/self/environ").toBaseIO with
  | .ok block => return Settings.variablesOfBlock block
  | .error _ => return []

end SymbolAtlas.CommandLine

open SymbolAtlas in
/-- Carries out what the command line asks for. -/
def main (words : List String) : IO UInt32 := do
  let outcome ← CommandLine.run CommandLine.systemHost (← CommandLine.systemVariables) words
  let stderr ← IO.getStderr
  for notice in outcome.notices do
    stderr.putStrLn notice.line
  IO.print outcome.out
  stderr.putStr outcome.err
  return outcome.exitCode.toUInt32
