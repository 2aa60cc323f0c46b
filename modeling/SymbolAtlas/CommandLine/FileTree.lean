import SymbolAtlas.Text.Search

/-!
# Files

What commands need to know of files and may do with them, and a tree of files that is held in
memory.
-/

set_option autoImplicit false

namespace SymbolAtlas.CommandLine

/-- Why a file cannot be read or written. -/
inductive FileFault where
  | notFound
  | alreadyThere
  | notADirectory
  | isADirectory
  | other (text : String)
deriving DecidableEq, Repr

/-- The text of a fault, with its number. -/
def FileFault.message : FileFault → String
  | notFound => "No such file or directory (os error 2)"
  | alreadyThere => "File exists (os error 17)"
  | notADirectory => "Not a directory (os error 20)"
  | isADirectory => "Is a directory (os error 21)"
  | other text => text

/-- What commands can do with files. -/
structure Host (m : Type → Type) where
  /-- The working directory and the directories around it, the innermost first. -/
  ancestors : m (List String)
  isFile : String → m Bool
  isDirectory : String → m Bool
  read : String → m (Except FileFault String)
  write : String → String → m (Except FileFault Unit)
  /-- Makes a directory, unless it is there already. -/
  makeDirectory : String → m (Except FileFault Unit)

/-- The parts of a path. -/
abbrev Path := List String

/-- Files and directories in memory. -/
structure FileTree where
  files : List (Path × String) := []
  directories : List Path := []
  workingDirectory : Path := []
deriving DecidableEq, Repr

/-- What a path leads to. -/
inductive Place where
  | file (path : Path) (content : String)
  | directory (path : Path)
  /-- Nothing, in a directory that is there. The path may be written like that of a directory. -/
  | missing (path : Path) (asDirectory : Bool)
deriving DecidableEq, Repr

namespace FileTree

/-- Whether there is a directory at a path. -/
def hasDirectory (t : FileTree) (path : Path) : Bool :=
  path.isEmpty || t.directories.contains path

/-- Follows the parts of a path from a directory. -/
def walk (t : FileTree) (dir : Path) : List String → Except FileFault Place
  | [] => .ok (.directory dir)
  | name :: rest =>
    if name == "" || name == "." then t.walk dir rest
    else if name == ".." then t.walk dir.dropLast rest
    else if t.hasDirectory (dir ++ [name]) then t.walk (dir ++ [name]) rest
    else
      match t.files.lookup (dir ++ [name]) with
      | some content =>
        if rest.isEmpty then .ok (.file (dir ++ [name]) content) else .error .notADirectory
      | none =>
        if rest.all (· == "") then .ok (.missing (dir ++ [name]) !rest.isEmpty)
        else .error .notFound

/-- The parts of a path as written. -/
def parts (path : String) : List String :=
  (Text.splitAtChar '/' path.toList).map String.ofList

/-- What a path leads to from the working directory, or from the root if it begins there. -/
def find (t : FileTree) (path : String) : Except FileFault Place :=
  if path.toList.head? == some '/' then t.walk [] (parts path)
  else t.walk t.workingDirectory (parts path)

/-- The text of a file. -/
def read (t : FileTree) (path : String) : Except FileFault String := do
  match ← t.find path with
  | .file _ content => .ok content
  | .directory _ => .error .isADirectory
  | .missing _ _ => .error .notFound

/-- The tree with a text in a file. -/
def write (t : FileTree) (path content : String) : Except FileFault FileTree := do
  match ← t.find path with
  | .file path _ =>
    .ok { t with
      files := t.files.map fun (p, old) => if p = path then (p, content) else (p, old) }
  | .directory _ | .missing _ true => .error .isADirectory
  | .missing path false => .ok { t with files := t.files ++ [(path, content)] }

/-- The tree with a directory. -/
def makeDirectory (t : FileTree) (path : String) : Except FileFault FileTree := do
  match ← t.find path with
  | .file _ _ => .error .alreadyThere
  | .directory _ => .ok t
  | .missing path _ => .ok { t with directories := t.directories ++ [path] }

/-- Whether there is a file at a path. -/
def isFile (t : FileTree) (path : String) : Bool :=
  (t.find path) matches .ok (.file ..)

/-- Whether there is a directory at a path. -/
def isDirectory (t : FileTree) (path : String) : Bool :=
  (t.find path) matches .ok (.directory _)

/-- A path from the root as written. -/
def written (path : Path) : String :=
  "/" ++ Text.joinWith "/" path

/-- The beginnings of a path, the shortest first. -/
def beginnings (path : Path) : List Path :=
  (List.range (path.length + 1)).map path.take

/-- A directory and the directories around it as written, the innermost first. -/
def ancestors (path : Path) : List String :=
  (beginnings path).reverse.map written

/-- The tree with all directories that a path goes through. -/
def withDirectories (t : FileTree) (path : Path) : FileTree :=
  { t with directories := t.directories ++ (beginnings path).tail }

/-- A tree of the given files, with a working directory. -/
def ofFiles (files : List (String × String)) (workingDirectory : String) : FileTree :=
  let place (t : FileTree) (file : String × String) : FileTree :=
    let path := (parts file.1).filter (· != "")
    let t := t.withDirectories path.dropLast
    { t with files := t.files ++ [(path, file.2)] }
  let dir := (parts workingDirectory).filter (· != "")
  let t := (files.foldl place {}).withDirectories dir
  { t with workingDirectory := dir }

/-- Does something that changes the tree, unless it fails. -/
def change (f : FileTree → Except FileFault FileTree) :
    StateM FileTree (Except FileFault Unit) := do
  match f (← get) with
  | .ok t =>
    set t
    return .ok ()
  | .error fault => return .error fault

/-- The tree as a host of commands. -/
def host : Host (StateM FileTree) where
  ancestors := do return ancestors (← get).workingDirectory
  isFile path := do return (← get).isFile path
  isDirectory path := do return (← get).isDirectory path
  read path := do return (← get).read path
  write path content := change fun t => t.write path content
  makeDirectory path := change fun t => t.makeDirectory path

end FileTree

end SymbolAtlas.CommandLine
