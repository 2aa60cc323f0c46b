import SymbolAtlas.Text.Digits

/-!
# Options

The switches that decide what is extracted and how it is shown. They are looked up once, by their
dashed names, in whatever source holds them.
-/

set_option autoImplicit false

namespace SymbolAtlas

/-- What an atlas is built under. -/
structure Options where
  extractPrivate : Bool := false
  extractPackage : Bool := false
  extractStatic : Bool := false
  extractLocalClasses : Bool := true
  extractLocalMethods : Bool := false
  hideUndocClasses : Bool := false
  hideUndocMembers : Bool := false
  hideFriendCompounds : Bool := false
  inlineInheritedMember : Bool := false
  allowSubGrouping : Bool := false
  inlineSimpleStruct : Bool := false
  caseSensitiveFileNames : Bool := false
  allExternals : Bool := false
  htmlFileExtension : String := ".html"
  /-- The length beyond which inheritance paths are not followed; zero means that there is no
  bound. -/
  maxInheritanceDepth : Nat := 256
deriving DecidableEq, Repr, Inhabited

/-- Where options are looked up. -/
structure OptionSource where
  flag? : String → Option Bool
  text? : String → Option String

namespace OptionSource

/-- Reads a number below two to the power of 64; a plus sign may stand in front of it. -/
def readCount? (text : String) : Option Nat :=
  let digits :=
    match text.toList with
    | '+' :: rest => rest
    | cs => cs
  if !digits.isEmpty && digits.all Char.isDigit then
    let n := Text.digitsValue digits
    if n < 0x10000000000000000 then some n else none
  else none

/-- The number that an option is set to. -/
def count? (source : OptionSource) (name : String) : Option Nat :=
  (source.text? name).bind readCount?

/-- A source that holds the text of each option. -/
def ofTexts (values : List (String × String)) : OptionSource where
  flag? name :=
    match values.lookup name with
    | some "true" | some "yes" | some "1" => some true
    | some "false" | some "no" | some "0" => some false
    | _ => none
  text? name := values.lookup name

end OptionSource

/-- The options that a source gives. -/
def Options.ofSource (source : OptionSource) : Options :=
  let flag (name : String) (otherwise : Bool) := (source.flag? name).getD otherwise
  { extractPrivate := flag "extract-private" false
    extractPackage := flag "extract-package" false
    extractStatic := flag "extract-static" false
    extractLocalClasses := flag "extract-local-classes" true
    extractLocalMethods := flag "extract-local-methods" false
    hideUndocClasses := flag "hide-undoc-classes" false
    hideUndocMembers := flag "hide-undoc-members" false
    hideFriendCompounds := flag "hide-friend-compounds" false
    inlineInheritedMember := flag "inline-inherited-member" false
    allowSubGrouping := flag "allow-sub-grouping" false
    inlineSimpleStruct := flag "inline-simple-struct" false
    caseSensitiveFileNames := flag "case-sensitive-fname" false
    allExternals := flag "all-externals" false
    htmlFileExtension := (source.text? "html-file-extension").getD ".html"
    maxInheritanceDepth := (source.count? "max-inheritance-depth").getD 256 }

end SymbolAtlas
