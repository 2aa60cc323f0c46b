import SymbolAtlas.Text.Blank
import SymbolAtlas.Text.Search

/-!
# Source languages

The language of a declaration decides how scopes are separated when names are shown. It is stated,
or told from the extension of the file a declaration stands in.
-/

set_option autoImplicit false

namespace SymbolAtlas

/-- Source language of a declaration. -/
inductive Language where
  | unknown
  | cpp
  | java
  | csharp
  | objc
  | idl
  | python
  | php
  | d
  | js
  | fortran
deriving DecidableEq, Repr, Inhabited

namespace Language

/-- The word used for the language. -/
def name : Language → String
  | unknown => "unknown"
  | cpp => "cpp"
  | java => "java"
  | csharp => "csharp"
  | objc => "objc"
  | idl => "idl"
  | python => "python"
  | php => "php"
  | d => "d"
  | js => "js"
  | fortran => "fortran"

/-- The language a word stands for; every other word means an unknown language. -/
def ofName (text : String) : Language :=
  match Text.keyword text with
  | "c" | "cpp" | "c++" => cpp
  | "java" => java
  | "csharp" | "c#" | "cs" => csharp
  | "objc" | "objective-c" => objc
  | "idl" => idl
  | "python" => python
  | "php" => php
  | "d" => d
  | "js" | "javascript" => js
  | "fortran" => fortran
  | _ => unknown

/-- What follows the last dot of a file name, in lower case; empty without a dot. -/
def extension (file : String) : String :=
  match Text.cutLastChar '.' file.toList with
  | some (_, after) => Text.asciiLower (String.ofList after)
  | none => ""

/-- The language of a file, told from its extension. -/
def ofFile (file : String) : Language :=
  match extension file with
  | "h" | "hh" | "hpp" | "hxx" | "h++" | "c" | "cc" | "cpp" | "cxx" | "c++" | "ipp" | "inl" => cpp
  | "java" => java
  | "cs" => csharp
  | "m" | "mm" => objc
  | "idl" | "ddl" | "odl" => idl
  | "py" | "pyw" => python
  | "php" | "php4" | "php5" | "inc" | "phtml" => php
  | "d" => d
  | "js" => js
  | "f" | "for" | "f90" | "f95" | "f03" | "f08" => fortran
  | _ => unknown

/-- Whether a file holds implementations rather than declarations. -/
def isImplementationFile (file : String) : Bool :=
  ["c", "cc", "cxx", "cpp", "c++", "m", "mm"].contains (extension file)

/-- What stands between the parts of a qualified name. PHP separates namespaces in its own way. -/
def separator (language : Language) (ofClass : Bool) : String :=
  match language with
  | java | csharp | python | js => "."
  | php => if ofClass then "::" else "\\"
  | _ => "::"

end Language

end SymbolAtlas
