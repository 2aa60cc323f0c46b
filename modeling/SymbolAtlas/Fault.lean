import SymbolAtlas.Vocabulary.EntityKind
import SymbolAtlas.Vocabulary.Identifier
import SymbolAtlas.Vocabulary.MemberKind
import SymbolAtlas.Vocabulary.Protection

/-!
# Faults

Why an operation on an atlas is refused, or a word of a declaration not understood. Each word of the
vocabulary is read with the fault that an unknown one is.
-/

set_option autoImplicit false

namespace SymbolAtlas

/-- A reason for refusal. -/
inductive Fault where
  | unknownEntity (id : EntityId)
  | unknownMember (id : MemberId)
  | notAClass (name : String)
  | notANamespace (name : String)
  | unknownMemberKind (text : String)
  | unknownEntityKind (text : String)
  | unknownProtection (text : String)
  | unknownVirtualness (text : String)
deriving DecidableEq, Repr

/-- The text of a fault. -/
def Fault.message : Fault → String
  | unknownEntity id =>
    "Entity id EntityId(" ++ toString id.number ++ ") is not registered in this model"
  | unknownMember id =>
    "Member id MemberId(" ++ toString id.number ++ ") is not registered in this model"
  | notAClass name => "'" ++ name ++ "' is not a class-like entity"
  | notANamespace name => "'" ++ name ++ "' is not a namespace"
  | unknownMemberKind text => "Unrecognized member kind '" ++ text ++ "'"
  | unknownEntityKind text => "Unrecognized compound type '" ++ text ++ "'"
  | unknownProtection text => "Unrecognized protection level '" ++ text ++ "'"
  | unknownVirtualness text => "Unrecognized virtualness specifier '" ++ text ++ "'"

/-! ## Decoding words -/

/-- Reads a protection. -/
def Protection.decode (text : String) : Except Fault Protection :=
  match ofName? text with
  | some p => .ok p
  | none => .error (.unknownProtection text)

/-- Reads a virtualness. -/
def Virtualness.decode (text : String) : Except Fault Virtualness :=
  match ofName? text with
  | some v => .ok v
  | none => .error (.unknownVirtualness text)

/-- Reads the kind of an entity. -/
def EntityKind.decode (text : String) : Except Fault EntityKind :=
  match ofName? text with
  | some k => .ok k
  | none => .error (.unknownEntityKind text)

/-- Reads the kind of a member. -/
def MemberKind.decode (text : String) : Except Fault MemberKind :=
  match ofName? text with
  | some k => .ok k
  | none => .error (.unknownMemberKind text)

end SymbolAtlas
