/-!
# Identifiers and locations

Entities and members are numbered from one in the order in which they are added, and are addressed
by these numbers. The number zero is never given out; as an address it reads the first slot.
-/

set_option autoImplicit false

namespace SymbolAtlas

/-- Number of an entity. -/
structure EntityId where
  number : Nat
deriving DecidableEq, Repr, Inhabited

/-- Number of a member. -/
structure MemberId where
  number : Nat
deriving DecidableEq, Repr, Inhabited

/-- The identifier with a number; zero is the number of none. -/
def EntityId.ofNumber? (n : Nat) : Option EntityId :=
  if n = 0 then none else some ⟨n⟩

/-- The identifier with a number; zero is the number of none. -/
def MemberId.ofNumber? (n : Nat) : Option MemberId :=
  if n = 0 then none else some ⟨n⟩

/-- The slot in which the entity is stored. -/
def EntityId.slot (id : EntityId) : Nat :=
  id.number - 1

/-- The slot in which the member is stored. -/
def MemberId.slot (id : MemberId) : Nat :=
  id.number - 1

/-- The identifier of the entity stored in a slot. -/
def EntityId.ofSlot (slot : Nat) : EntityId :=
  ⟨slot + 1⟩

/-- The identifier of the member stored in a slot. -/
def MemberId.ofSlot (slot : Nat) : MemberId :=
  ⟨slot + 1⟩

theorem EntityId.slot_ofSlot (slot : Nat) : (EntityId.ofSlot slot).slot = slot := rfl

theorem MemberId.slot_ofSlot (slot : Nat) : (MemberId.ofSlot slot).slot = slot := rfl

/-- Where a declaration was found. -/
structure Location where
  file : String := ""
  line : Nat := 0
  column : Nat := 0
deriving DecidableEq, Repr, Inhabited

/-- A location as it is shown: file and line. -/
def Location.text (l : Location) : String :=
  l.file ++ ":" ++ toString l.line

end SymbolAtlas
