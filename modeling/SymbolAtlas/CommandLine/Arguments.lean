import SymbolAtlas.Text.Search

/-!
# Command lines

What the words of a command line ask for. Options begin with two hyphens, or with one hyphen and a
letter; letters can be written together. The value of an option stands behind an equals sign or in
the next word. Behind a word of two hyphens no options are read.
-/

set_option autoImplicit false

namespace SymbolAtlas.CommandLine

/-- What can be done. -/
inductive Command where
  /-- Write a file with the settings that hold when nothing is set. -/
  | init (force : Bool)
  /-- Build an atlas and tell what that amounted to. -/
  | build (records : String) (tagFile : Option String) (json : Bool)
  /-- Show the roster of a class. -/
  | members (records entity : String) (json : Bool)
  /-- Show the bases of a class and the classes derived from it. -/
  | hierarchy (records entity : String) (json : Bool)
  /-- Find the member that a name means in a class. -/
  | lookup (records entity member : String) (json : Bool)
  /-- Show the settings that hold. -/
  | config
deriving DecidableEq, Repr

/-- Whether the answer is for another program. -/
def Command.json : Command → Bool
  | init _ | config => false
  | build _ _ json | members _ _ json | hierarchy _ _ json | lookup _ _ _ json => json

/-- What a command line asks for. -/
structure Invocation where
  /-- The file with the settings. -/
  settingsFile : Option String := none
  command : Command
deriving DecidableEq, Repr

/-- Why a command line is not carried out. -/
inductive Stop where
  | usage
  | help
  | version
deriving DecidableEq, Repr

/-- An option. -/
structure OptionRule where
  name : String
  short : Option Char := none
  /-- Whether a value, which is not empty, belongs to the option. -/
  takesValue : Bool := false
  /-- What the option asks for instead of a command. -/
  stop : Option Stop := none
deriving DecidableEq, Repr

namespace OptionRule

/-- The option that names the file with the settings. -/
def config : OptionRule :=
  { name := "config", short := some 'c', takesValue := true }

/-- The option that asks for help. -/
def help : OptionRule :=
  { name := "help", short := some 'h', stop := some .help }

/-- The option that asks for the version. -/
def version : OptionRule :=
  { name := "version", short := some 'V', stop := some .version }

/-- The option that asks for an answer to another program. -/
def json : OptionRule :=
  { name := "json" }

/-- The option that lets an existing file be replaced. -/
def force : OptionRule :=
  { name := "force", short := some 'f' }

/-- The option that names the tag file to be written. -/
def tagFile : OptionRule :=
  { name := "tagfile", takesValue := true }

end OptionRule

/-- What has been read of a command line. -/
structure Parsed where
  /-- The options with their values, which are empty for options that take none. -/
  options : List (String × String) := []
  words : List String := []
deriving DecidableEq, Repr

namespace Parsed

/-- Adds an option, which may be given only once. -/
def addOption (p : Parsed) (rule : OptionRule) (value : String) : Except Stop Parsed :=
  match rule.stop with
  | some stop => .error stop
  | none =>
    if (p.options.lookup rule.name).isSome || (rule.takesValue && value == "") then .error .usage
    else .ok { p with options := p.options ++ [(rule.name, value)] }

/-- The value of an option. -/
def value? (p : Parsed) (rule : OptionRule) : Option String :=
  p.options.lookup rule.name

/-- Whether an option is given. -/
def has (p : Parsed) (rule : OptionRule) : Bool :=
  (p.value? rule).isSome

end Parsed

/-- Whether a word begins like an option. -/
def isOption (word : String) : Bool :=
  match word.toList with
  | '-' :: _ :: _ => true
  | _ => false

/-- Takes the value of an option from the next word. -/
def takeValue (p : Parsed) (rule : OptionRule) : List String → Except Stop (Parsed × List String)
  | [] => .error .usage
  | word :: rest =>
    if isOption word then .error .usage
    else (p.addOption rule word).map fun p => (p, rest)

/-- Reads an option with two hyphens. -/
def readLong (rules : List OptionRule) (p : Parsed) (text : List Char) (rest : List String) :
    Except Stop (Parsed × List String) :=
  let name := String.ofList (text.takeWhile fun c => c != '=')
  let attached := (text.dropWhile fun c => c != '=').tail?.map String.ofList
  match rules.find? fun rule => rule.name == name with
  | none => .error .usage
  | some rule =>
    match attached, rule.takesValue with
    | some value, true => (p.addOption rule value).map fun p => (p, rest)
    | some _, false => .error .usage
    | none, true => takeValue p rule rest
    | none, false => (p.addOption rule "").map fun p => (p, rest)

/-- Reads options that are written together behind one hyphen. -/
def readShort (rules : List OptionRule) (p : Parsed) (rest : List String) :
    List Char → Except Stop (Parsed × List String)
  | [] => .ok (p, rest)
  | c :: cs =>
    match rules.find? fun rule => rule.short == some c with
    | none => .error .usage
    | some rule =>
      if rule.takesValue then
        match cs with
        | [] => takeValue p rule rest
        | '=' :: value => (p.addOption rule (String.ofList value)).map fun p => (p, rest)
        | value => (p.addOption rule (String.ofList value)).map fun p => (p, rest)
      else
        match p.addOption rule "" with
        | .error stop => .error stop
        | .ok p => readShort rules p rest cs

/-- Reads the option at the beginning of a command line. -/
def readOption (rules : List OptionRule) (p : Parsed) (word : String) (rest : List String) :
    Except Stop (Parsed × List String) :=
  match word.toList with
  | '-' :: '-' :: text => readLong rules p text rest
  | '-' :: letters => readShort rules p rest letters
  | _ => .error .usage

/-- What a command takes. -/
structure CommandRule where
  options : List OptionRule
  /-- Whether each word may be empty. -/
  words : List Bool

/-- Adds a word, for which there must be a place. -/
def CommandRule.addWord (rule : CommandRule) (p : Parsed) (word : String) : Except Stop Parsed :=
  match rule.words[p.words.length]? with
  | none => .error .usage
  | some mayBeEmpty =>
    if word == "" && !mayBeEmpty then .error .usage
    else .ok { p with words := p.words ++ [word] }

/-- Reads what follows the name of a command. Every step makes the rest shorter, so its length
bounds the number of steps. -/
def CommandRule.read (rule : CommandRule) : Nat → Parsed → List String → Except Stop Parsed
  | 0, p, _ => .ok p
  | bound + 1, p, rest =>
    match rest with
    | [] => if p.words.length = rule.words.length then .ok p else .error .usage
    | "--" :: words => do
      let p ← words.foldlM rule.addWord p
      if p.words.length = rule.words.length then .ok p else .error .usage
    | word :: rest =>
      if isOption word then do
        let (p, rest) ← readOption rule.options p word rest
        rule.read bound p rest
      else do
        let p ← rule.addWord p word
        rule.read bound p rest

/-- What commands take, by their names. -/
def commandRules : List (String × CommandRule) :=
  [("init", ⟨[.config, .help, .force], []⟩),
    ("build", ⟨[.config, .help, .json, .tagFile], [false]⟩),
    ("members", ⟨[.config, .help, .json], [false, true]⟩),
    ("hierarchy", ⟨[.config, .help, .json], [false, true]⟩),
    ("lookup", ⟨[.config, .help, .json], [false, true, true]⟩),
    ("config", ⟨[.config, .help], []⟩)]

/-- The command with a name. -/
def ofParsed? (name : String) (p : Parsed) : Option Command :=
  let json := p.has .json
  match name, p.words with
  | "init", [] => some (.init (p.has .force))
  | "build", [records] => some (.build records (p.value? .tagFile) json)
  | "members", [records, entity] => some (.members records entity json)
  | "hierarchy", [records, entity] => some (.hierarchy records entity json)
  | "lookup", [records, entity, member] => some (.lookup records entity member json)
  | "config", [] => some .config
  | _, _ => none

/-- Whether help is available on what words name. -/
def hasHelp : List String → Bool
  | [] => true
  | [name] => name == "help" || (commandRules.lookup name).isSome
  | _ => false

/-- Reads the name of a command and what follows it. A file with settings that is named behind the
command counts more than one that is named before. -/
def readCommand (before : Parsed) (name : String) (rest : List String) : Except Stop Invocation :=
  if name == "help" then .error (if hasHelp rest then .help else .usage)
  else
    match commandRules.lookup name with
    | none => .error .usage
    | some rule => do
      let p ← rule.read (rest.length + 1) {} rest
      match ofParsed? name p with
      | none => .error .usage
      | some command =>
        let settingsFile := (p.value? .config).or (before.value? .config)
        return { settingsFile, command }

/-- Reads a command line from the options that stand before the name of the command. -/
def readFrom : Nat → Parsed → List String → Except Stop Invocation
  | 0, _, _ => .error .usage
  | bound + 1, p, words =>
    match words with
    | [] => .error .usage
    | word :: rest =>
      if isOption word then do
        let (p, rest) ← readOption [.config, .help, .version] p word rest
        readFrom bound p rest
      else readCommand p word rest

/-- Reads a command line. -/
def Invocation.read (words : List String) : Except Stop Invocation :=
  readFrom (words.length + 1) {} words

/-- How command lines are written. -/
def usage : String :=
  Text.joinWith "\n" [
    "Build and query a cross-referenced documentation model",
    "",
    "Usage: docgraph [OPTIONS] <COMMAND>",
    "",
    "Commands:",
    "  init [--force]",
    "  build <RECORDS> [--tagfile <TAGFILE>] [--json]",
    "  members <RECORDS> <ENTITY> [--json]",
    "  hierarchy <RECORDS> <ENTITY> [--json]",
    "  lookup <RECORDS> <ENTITY> <MEMBER> [--json]",
    "  config",
    "",
    "Options:",
    "  -c, --config <CONFIG>",
    "  -h, --help",
    "  -V, --version",
    ""]

end SymbolAtlas.CommandLine
