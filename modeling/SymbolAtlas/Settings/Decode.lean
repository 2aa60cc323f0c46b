import SymbolAtlas.Settings.Basic
import SymbolAtlas.Settings.Tree

/-!
# Reading settings

Settings have exact types: a text is not taken for a number or a truth value. Missing settings have
their defaults, and fields that are not known are passed over. A section may also be a list of its
values in order.
-/

set_option autoImplicit false

namespace SymbolAtlas.Settings

/-- The fields of a section. -/
abbrev Group := List (String × Tree)

namespace Tree

/-- The fields of a section whose names, in order, are given. -/
def group? (names : List String) : Tree → Option Group
  | .group fields => some fields
  | .list items => some (names.zip items)
  | _ => none

end Tree

namespace Group

/-- A field, or the default if it is missing. -/
def get? {α : Type} (g : Group) (name : String) (read : Tree → Option α) (missing : α) : Option α :=
  match g.lookup name with
  | none => some missing
  | some t => read t

/-- A flag. -/
def flag? (g : Group) (name : String) (missing : Bool) : Option Bool :=
  g.get? name (fun | .flag b => some b | _ => none) missing

/-- A text. -/
def text? (g : Group) (name : String) (missing : String) : Option String :=
  g.get? name (fun | .text s => some s | _ => none) missing

/-- A natural number below a bound. -/
def count? (g : Group) (name : String) (bound missing : Nat) : Option Nat :=
  g.get? name
    (fun
      | .integer (.ofNat n) => if n < bound then some n else none
      | _ => none)
    missing

end Group

/-- Reads the section on extraction. -/
def extraction? (t : Tree) : Option ExtractionSettings := do
  let g ← t.group? ["extract_private", "extract_package", "extract_static", "extract_local_classes",
    "extract_local_methods", "hide_undoc_classes", "hide_undoc_members", "hide_friend_compounds"]
  return {
    extractPrivate := ← g.flag? "extract_private" false
    extractPackage := ← g.flag? "extract_package" false
    extractStatic := ← g.flag? "extract_static" false
    extractLocalClasses := ← g.flag? "extract_local_classes" true
    extractLocalMethods := ← g.flag? "extract_local_methods" false
    hideUndocClasses := ← g.flag? "hide_undoc_classes" false
    hideUndocMembers := ← g.flag? "hide_undoc_members" false
    hideFriendCompounds := ← g.flag? "hide_friend_compounds" false }

/-- Reads the section on output. -/
def output? (t : Tree) : Option OutputSettings := do
  let g ← t.group? ["inline_inherited_member", "allow_sub_grouping", "inline_simple_struct",
    "case_sensitive_fname", "html_file_extension", "all_externals"]
  return {
    inlineInheritedMember := ← g.flag? "inline_inherited_member" false
    allowSubGrouping := ← g.flag? "allow_sub_grouping" false
    inlineSimpleStruct := ← g.flag? "inline_simple_struct" false
    caseSensitiveFileNames := ← g.flag? "case_sensitive_fname" false
    htmlFileExtension := ← g.text? "html_file_extension" ".html"
    allExternals := ← g.flag? "all_externals" false }

/-- Reads the section on analysis. -/
def analysis? (t : Tree) : Option AnalysisSettings := do
  let g ← t.group? ["max_inheritance_depth"]
  return { maxInheritanceDepth := ← g.count? "max_inheritance_depth" 0x10000000000000000 256 }

/-- Reads the section on logging. -/
def logging? (t : Tree) : Option LoggingSettings := do
  let g ← t.group? ["level", "json"]
  return {
    level := ← g.text? "level" "warn"
    json := ← g.flag? "json" false }

/-- Reads settings from the fields of the outermost section. -/
def ofGroup? (g : Group) : Option Settings := do
  return {
    version := ← g.count? "version" 0x100000000 1
    extraction := ← g.get? "extraction" extraction? {}
    output := ← g.get? "output" output? {}
    analysis := ← g.get? "analysis" analysis? {}
    logging := ← g.get? "logging" logging? {} }

end SymbolAtlas.Settings
