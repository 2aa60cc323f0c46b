import SymbolAtlas.Options
import SymbolAtlas.Toml.Printer

/-!
# Settings

What can be set, in sections, with the text that saves it. The options of an atlas are looked up in
the settings by their dashed names.
-/

set_option autoImplicit false

namespace SymbolAtlas

/-- Which declarations are extracted. -/
structure ExtractionSettings where
  extractPrivate : Bool := false
  extractPackage : Bool := false
  extractStatic : Bool := false
  extractLocalClasses : Bool := true
  extractLocalMethods : Bool := false
  hideUndocClasses : Bool := false
  hideUndocMembers : Bool := false
  hideFriendCompounds : Bool := false
deriving DecidableEq, Repr, Inhabited

/-- How the result is laid out. -/
structure OutputSettings where
  inlineInheritedMember : Bool := false
  allowSubGrouping : Bool := false
  inlineSimpleStruct : Bool := false
  caseSensitiveFileNames : Bool := false
  htmlFileExtension : String := ".html"
  allExternals : Bool := false
deriving DecidableEq, Repr, Inhabited

/-- The bounds of searches. -/
structure AnalysisSettings where
  maxInheritanceDepth : Nat := 256
deriving DecidableEq, Repr, Inhabited

/-- What is logged and how. -/
structure LoggingSettings where
  level : String := "warn"
  json : Bool := false
deriving DecidableEq, Repr, Inhabited

/-- Everything that can be set. -/
structure Settings where
  version : Nat := 1
  extraction : ExtractionSettings := {}
  output : OutputSettings := {}
  analysis : AnalysisSettings := {}
  logging : LoggingSettings := {}
deriving DecidableEq, Repr, Inhabited

namespace Settings

/-- The flag with a dashed name. -/
def flag? (s : Settings) (name : String) : Option Bool :=
  match name with
  | "extract-private" => some s.extraction.extractPrivate
  | "extract-package" => some s.extraction.extractPackage
  | "extract-static" => some s.extraction.extractStatic
  | "extract-local-classes" => some s.extraction.extractLocalClasses
  | "extract-local-methods" => some s.extraction.extractLocalMethods
  | "hide-undoc-classes" => some s.extraction.hideUndocClasses
  | "hide-undoc-members" => some s.extraction.hideUndocMembers
  | "hide-friend-compounds" => some s.extraction.hideFriendCompounds
  | "inline-inherited-member" => some s.output.inlineInheritedMember
  | "allow-sub-grouping" => some s.output.allowSubGrouping
  | "inline-simple-struct" => some s.output.inlineSimpleStruct
  | "case-sensitive-fname" => some s.output.caseSensitiveFileNames
  | "all-externals" => some s.output.allExternals
  | _ => none

/-- The text with a dashed name. -/
def text? (s : Settings) (name : String) : Option String :=
  match name with
  | "html-file-extension" => some s.output.htmlFileExtension
  | "max-inheritance-depth" => some (toString s.analysis.maxInheritanceDepth)
  | "log-level" => some s.logging.level
  | _ => none

/-- The settings as a source of options. -/
def source (s : Settings) : OptionSource where
  flag? := s.flag?
  text? := s.text?

/-- The options that the settings give. -/
def options (s : Settings) : Options :=
  Options.ofSource s.source

/-- A line that saves a flag. -/
def flagLine (name : String) (value : Bool) : String :=
  name ++ " = " ++ (if value then "true" else "false")

/-- A line that saves a text. -/
def textLine (name value : String) : String :=
  name ++ " = " ++ Toml.quote value

/-- A line that saves a number. -/
def countLine (name : String) (value : Nat) : String :=
  name ++ " = " ++ toString value

/-- The lines that save the settings. -/
def lines (s : Settings) : List String :=
  let e := s.extraction
  let o := s.output
  [countLine "version" s.version,
    "",
    "[extraction]",
    flagLine "extract_private" e.extractPrivate,
    flagLine "extract_package" e.extractPackage,
    flagLine "extract_static" e.extractStatic,
    flagLine "extract_local_classes" e.extractLocalClasses,
    flagLine "extract_local_methods" e.extractLocalMethods,
    flagLine "hide_undoc_classes" e.hideUndocClasses,
    flagLine "hide_undoc_members" e.hideUndocMembers,
    flagLine "hide_friend_compounds" e.hideFriendCompounds,
    "",
    "[output]",
    flagLine "inline_inherited_member" o.inlineInheritedMember,
    flagLine "allow_sub_grouping" o.allowSubGrouping,
    flagLine "inline_simple_struct" o.inlineSimpleStruct,
    flagLine "case_sensitive_fname" o.caseSensitiveFileNames,
    textLine "html_file_extension" o.htmlFileExtension,
    flagLine "all_externals" o.allExternals,
    "",
    "[analysis]",
    countLine "max_inheritance_depth" s.analysis.maxInheritanceDepth,
    "",
    "[logging]",
    textLine "level" s.logging.level,
    flagLine "json" s.logging.json]

/-- The text that saves the settings, unless a number in it is too great for the format. -/
def render? (s : Settings) : Option String :=
  if s.analysis.maxInheritanceDepth < 0x8000000000000000 then
    some (String.join (s.lines.map fun line => line ++ "\n"))
  else none

/-- A file with the settings that hold when nothing is set, and what each of them is for. -/
def template : String :=
  Text.joinWith "\n" [
    "# docgraph configuration file",
    "",
    "# Version of the configuration schema",
    "version = 1",
    "",
    "[extraction]",
    "# Document private members and private base classes",
    "extract_private = false",
    "# Document package-scoped members (Java, C#)",
    "extract_package = false",
    "# Document file-static entities",
    "extract_static = false",
    "# Document classes declared in source files",
    "extract_local_classes = true",
    "# Document methods from implementation sections (Objective-C)",
    "extract_local_methods = false",
    "hide_undoc_classes = false",
    "hide_undoc_members = false",
    "# Drop friend class declarations from the friends list",
    "hide_friend_compounds = false",
    "",
    "[output]",
    "# Copy inherited members into the derived class' own member lists",
    "inline_inherited_member = false",
    "allow_sub_grouping = false",
    "inline_simple_struct = false",
    "case_sensitive_fname = false",
    "html_file_extension = \".html\"",
    "# Show external classes in hierarchies",
    "all_externals = false",
    "",
    "[analysis]",
    "# Base/derived traversals deeper than this are treated as cycles.",
    "# Set to 0 to rely on cycle detection only.",
    "max_inheritance_depth = 256",
    "",
    "[logging]",
    "# Default filter when RUST_LOG is not set",
    "level = \"warn\"",
    "json = false",
    ""]

end Settings

end SymbolAtlas
