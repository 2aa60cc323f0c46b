import SymbolAtlas.Build.Basic

/-!
# Adding members
-/

set_option autoImplicit false

namespace SymbolAtlas.Build

/-- What the declaration of a member says besides its words. -/
def memberFlags (decl : MemberDecl) (kind : MemberKind) : MemberFlags where
  isStatic := decl.isStatic
  isFriend := decl.isFriend
  isRelated := decl.isRelated
  isConstructor := decl.isConstructor
  isDestructor := decl.isDestructor
  isDocumented := decl.isDocumented
  isHidden := decl.isHidden
  isFunctionPointer := kind == .variableKind && Text.occursIn ['(', '*'] decl.typeText.toList

/-- The member that a declaration describes. What it does not say about its location is that of the
owner. -/
def describeMember (owner : EntityDecl) (decl : MemberDecl) (kind : MemberKind) (p : Protection)
    (v : Virtualness) : Member :=
  let location : Location :=
    { file := decl.file.getD owner.file
      line := if 0 < decl.line then decl.line else owner.line
      column := 1 }
  let m : Member := { name := decl.name, kind, protection := p, virtualness := v }
  let m := ((m.withLocation location).withType decl.typeText).withArgs decl.args
  { m with
    flags := memberFlags decl kind
    language := (owner.language.map Language.ofName).getD m.language }

/-- The member that a declaration describes, unless a word in it is not understood. -/
def memberOf (owner : EntityDecl) (decl : MemberDecl) : Noted (Option Member) := do
  match MemberKind.decode decl.kind with
  | .error fault =>
    .give (.skippedMember decl.name owner.name fault)
    return none
  | .ok kind =>
    match ← protectionOf decl.name decl.protection with
    | none => return none
    | some p =>
      let v ← decodeOr Virtualness.decode .normal (.skippedMember decl.name owner.name)
        decl.virtualness
      return v.map (describeMember owner decl kind p)

/-- Adds a member to an entity and files it there. -/
def addMember (owner : Declared) (progress : Progress) (decl : MemberDecl) : Noted Progress := do
  match ← memberOf owner.2 decl with
  | none =>
    return { progress with summary.skippedMembers := progress.summary.skippedMembers + 1 }
  | some m =>
    let (a, id) := progress.atlas.addMember (some owner.1) m
    match a.insertMember owner.1 id with
    | .ok filed => return { progress with atlas := ← filed }
    | .error _ => return { progress with atlas := a }

/-- Adds the members of all declarations. -/
def addMembers (progress : Progress) (declared : List Declared) : Noted Progress :=
  declared.foldlM (fun progress owner => owner.2.members.foldlM (addMember owner) progress) progress

end SymbolAtlas.Build
