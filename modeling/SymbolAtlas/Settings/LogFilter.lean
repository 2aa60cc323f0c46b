import SymbolAtlas.Notice
import SymbolAtlas.Options
import SymbolAtlas.Text.Search
import SymbolAtlas.Text.WordChar

/-!
# Log filters

The text that sets the level of logging is a list of directives with commas between them. A
directive gives a level to everything, to a target, or to a span in brackets that may name a field.
Filters are shown with the most specific directives first.
-/

set_option autoImplicit false

namespace SymbolAtlas.LogFilter

/-- How much is logged. -/
inductive Level where
  | off
  | error
  | warn
  | info
  | debug
  | trace
deriving DecidableEq, Repr, Inhabited

namespace Level

/-- All levels in the order of their numbers. -/
def all : List Level :=
  [off, error, warn, info, debug, trace]

/-- The word for a level. -/
def name : Level → String
  | off => "off"
  | error => "error"
  | warn => "warn"
  | info => "info"
  | debug => "debug"
  | trace => "trace"

/-- The level with a number, or with a name in capitals or small letters. -/
def ofText? (text : String) : Option Level :=
  match (OptionSource.readCount? text).bind (all[·]?) with
  | some level => some level
  | none => all.find? fun level => level.name == Text.asciiLower text

/-- The position of a level in the order from nothing to everything. -/
def rank (level : Level) : Nat :=
  all.idxOf level

/-- The least level that lets a severity through. -/
def ofSeverity : Severity → Level
  | .error => error
  | .warning => warn

end Level

/-- A field of a span and the value it must have, if one is given. -/
structure FieldMatch where
  name : String
  value : Option String
deriving DecidableEq, Repr

namespace FieldMatch

/-- Reads a field. Only the first two parts between equals signs count. -/
def read (text : List Char) : FieldMatch :=
  match (Text.splitAtChar '=' text).map String.ofList with
  | name :: value :: _ => ⟨name, some value⟩
  | [name] => ⟨name, none⟩
  | [] => ⟨"", none⟩

/-- The field as written. -/
def render (f : FieldMatch) : String :=
  match f.value with
  | some value => f.name ++ "=" ++ value
  | none => f.name

end FieldMatch

/-- What gets a level. -/
structure Directive where
  target : Option String := none
  span : Option String := none
  field : Option FieldMatch := none
  level : Level := .trace
deriving DecidableEq, Repr

namespace Directive

/-- Whether the directive depends on the spans that are open. -/
def isDynamic (d : Directive) : Bool :=
  d.span.isSome || d.field.isSome

/-- Whether the directive can be judged without knowing the spans that are open. -/
def isStatic (d : Directive) : Bool :=
  d.span.isNone && (d.field.bind (·.value)).isNone

/-- The directive as written. -/
def render (d : Directive) : String :=
  let field := match d.field with
    | some f => "\x7b" ++ f.render ++ "\x7d"
    | none => ""
  let brackets := if d.isDynamic then "[" ++ d.span.getD "" ++ field ++ "]" else ""
  let subject := d.target.getD "" ++ brackets
  if d.target.isNone && brackets == "" then d.level.name else subject ++ "=" ++ d.level.name

/-- The order of optional texts: nothing comes first. -/
def compareTexts : Option String → Option String → Ordering
  | none, none => .eq
  | none, some _ => .lt
  | some _, none => .gt
  | some a, some b => compare a b

/-- How specific a target is: its length in bytes, and a missing one least of all. -/
def targetRank (d : Directive) : Nat :=
  match d.target with
  | none => 0
  | some target => target.utf8ByteSize + 1

/-- How specific two directives are compared with each other. Equally specific ones are in
alphabetical order. -/
def compareSpecificity (a b : Directive) : Ordering :=
  (compare a.targetRank b.targetRank)
    |>.then (compare a.span.isSome.toNat b.span.isSome.toNat)
    |>.then (compare a.field.isSome.toNat b.field.isSome.toNat)
    |>.then (compareTexts a.target b.target)
    |>.then (compareTexts a.span b.span)
    |>.then (compareTexts (a.field.map (·.name)) (b.field.map (·.name)))
    |>.then (compareTexts (a.field.bind (·.value)) (b.field.bind (·.value)))

/-- Puts a directive in front of all less specific ones. It replaces one with the same subject. -/
def addTo (d : Directive) : List Directive → List Directive
  | [] => [d]
  | first :: rest =>
    match compareSpecificity d first with
    | .eq => d :: rest
    | .gt => d :: first :: rest
    | .lt => first :: addTo d rest

/-- What is being read in a directive. Starts are positions of characters. -/
inductive State where
  | start
  | levelOrTarget (start : Nat)
  | span (start : Nat)
  | field (start : Nat)
  | fields
  | target
  | level (start : Nat)
deriving DecidableEq, Repr

/-- Characters that a directive may begin with, apart from a bracket. -/
def isStartChar (c : Char) : Bool :=
  c == '-' || c == ':' || c == '_' || Text.isAlphanumeric c

/-- A directive and what is being read in it, after one more character, which stands at a position.
Parts are cut out of `text`. -/
def step? (text : List Char) (d : Directive) (state : State) (position : Nat) (c : Char) :
    Option (Directive × State) :=
  let part (start : Nat) : List Char := (text.take position).drop start
  let some? (cs : List Char) : Option String := if cs.isEmpty then none else some (String.ofList cs)
  match state with
  | .start =>
    if c == '[' then some (d, .span (position + 1))
    else if isStartChar c then some (d, .levelOrTarget position)
    else none
  | .levelOrTarget start =>
    let targeted := { d with target := some (String.ofList (part start)) }
    if c == '=' then some (targeted, .level (position + 1))
    else if c == '[' then some (targeted, .span (position + 1))
    else some (d, state)
  | .span start =>
    if c == ']' then some ({ d with span := some (String.ofList (part start)) }, .target)
    else if c == '\x7b' then some ({ d with span := some? (part start) }, .field (position + 1))
    else some (d, state)
  | .field start =>
    if c == '\x7d' then
      if (part start).isEmpty then none
      else some ({ d with field := some (FieldMatch.read (part start)) }, .fields)
    else some (d, state)
  | .fields => if c == ']' then some (d, .target) else none
  | .target => if c == '=' then some (d, .level (position + 1)) else none
  | .level _ => some (d, state)

/-- The directive when all characters are read. A word that is no level is a target. -/
def finish? (text : List Char) (d : Directive) : State → Option Directive
  | .levelOrTarget start =>
    let word := String.ofList (text.drop start)
    match Level.ofText? word with
    | some level => some { d with level }
    | none => some { d with target := some word }
  | .level start =>
    let word := String.ofList (text.drop start)
    if word == "" then some d else (Level.ofText? word).map fun level => { d with level }
  | .target => some d
  | _ => none

/-- Reads a directive. Blanks around it are not looked at, but they do count as parts of it. -/
def read? (text : List Char) : Option Directive := do
  let (d, state, _) ← (Text.trim text).foldlM
    (fun (d, state, position) c => do
      let (d, state) ← step? text d state position c
      return (d, state, position + 1))
    (({}, .start, 0) : Directive × State × Nat)
  finish? text d state

end Directive

/-- Reads a list of directives. -/
def read? (text : String) : Option (List Directive) :=
  if text == "" then some [] else (Text.splitAtChar ',' text.toList).mapM Directive.read?

/-- A list of directives as written: those that need no spans, then those that do. A directive that
names a field without a value is among both. -/
def render (directives : List Directive) : String :=
  let plain := directives.filter fun d => !d.isDynamic
  let dynamic := directives.filter Directive.isDynamic
  let statics := (plain ++ dynamic.filter Directive.isStatic).foldl (fun ds d => d.addTo ds) []
  let dynamics := dynamic.foldl (fun ds d => d.addTo ds) []
  Text.joinWith "," ((statics ++ dynamics).map Directive.render)

/-- Whether a text lets notices of a severity through that come from `source`: the longest target
that begins its name decides, and a text that cannot be read lets warnings through. -/
def admits (text source : String) (severity : Severity) : Bool :=
  let directives := ((read? text).getD [{ level := .warn }]).filter fun d => !d.isDynamic
  let applying := directives.filter fun d =>
    d.target.all fun target => target.toList.isPrefixOf source.toList
  match applying.foldl (fun ds d => d.addTo ds) [] with
  | d :: _ => (Level.ofSeverity severity).rank ≤ d.level.rank
  | [] => false

/-- The filter that a text sets. A text that cannot be read lets warnings through. -/
def ofText (text : String) : String :=
  match read? text with
  | some directives => render directives
  | none => Level.warn.name

end SymbolAtlas.LogFilter
