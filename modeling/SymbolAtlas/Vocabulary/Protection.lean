import SymbolAtlas.Text.Blank

/-!
# Protection and virtualness

How widely a declaration, or the members reached through an inheritance edge, may be used. Whether a
member can be overridden, and whether an inheritance edge is virtual.
-/

set_option autoImplicit false

namespace SymbolAtlas

/-- Protection levels, from the widest to the narrowest. -/
inductive Protection where
  | pub
  | prot
  | pkg
  | priv
deriving DecidableEq, Repr, Inhabited

namespace Protection

/-- Every level, widest first. -/
def all : List Protection := [pub, prot, pkg, priv]

theorem mem_all (p : Protection) : p ∈ all := by
  cases p <;> decide

/-- The word used for the level. -/
def name : Protection → String
  | pub => "public"
  | prot => "protected"
  | pkg => "package"
  | priv => "private"

/-- The level a word stands for; no word at all means public. -/
def ofName? (text : String) : Option Protection :=
  match Text.keyword text with
  | "public" | "" => some pub
  | "protected" => some prot
  | "package" | "internal" => some pkg
  | "private" => some priv
  | _ => none

/-- The protection that remains of `p` when a member is reached through an edge with protection
`edge`: a protected edge narrows public to protected, a private edge narrows everything. -/
def cappedBy (p edge : Protection) : Protection :=
  match edge with
  | prot => if p = pub then prot else p
  | priv => priv
  | _ => p

/-- Position in the order from the widest to the narrowest level. -/
def rank : Protection → Nat
  | pub => 0
  | prot => 1
  | pkg => 2
  | priv => 3

/-- The wider of two levels. -/
def wider (p q : Protection) : Protection :=
  if p.rank ≤ q.rank then p else q

end Protection

/-- Virtualness of a member or an inheritance edge. -/
inductive Virtualness where
  | normal
  | virtual
  | pureVirtual
deriving DecidableEq, Repr, Inhabited

namespace Virtualness

/-- The word used for the virtualness. -/
def name : Virtualness → String
  | normal => "normal"
  | virtual => "virtual"
  | pureVirtual => "pure"

/-- The virtualness a word stands for; no word at all means normal. -/
def ofName? (text : String) : Option Virtualness :=
  match Text.keyword text with
  | "normal" | "" => some normal
  | "virtual" => some virtual
  | "pure" | "pure-virtual" | "pure_virtual" => some pureVirtual
  | _ => none

/-- Neither virtual nor pure. -/
def isNormal (v : Virtualness) : Bool :=
  v == normal

/-- The virtualness of a member reached through an edge: that of the edge counts only when the
member's own is normal. -/
def through (v edge : Virtualness) : Virtualness :=
  if v.isNormal then edge else v

end Virtualness

end SymbolAtlas
