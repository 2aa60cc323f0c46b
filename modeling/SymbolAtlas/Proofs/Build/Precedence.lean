import SymbolAtlas.Proofs.Build.Accounting
import SymbolAtlas.Proofs.Build.Sites

/-!
# Several declarations of one name

All declarations of a name are about one entity. The first of them registers it, with its kind and its
location, and every one of them sets the protection. So the last one decides on that, also where it
says nothing of protection.
-/

set_option autoImplicit false

namespace SymbolAtlas

/-- The protection that a declaration gives, if it is understood. -/
def EntityDecl.protection? (decl : EntityDecl) : Option Protection :=
  (Build.protectionOf decl.name decl.protection).value

/-- The declarations of a name, but for those that are not understood. -/
def Document.declarationsOf (d : Document) (name : String) : List EntityDecl :=
  (d.entities.filter (·.isUnderstood)).filter (·.name == name)

/-- Kind and location are those of the first declaration, the protection is that of the last. -/
structure Heading.IsDeclaredBy (h : Heading) (decls : List EntityDecl) : Prop where
  kind : decls.head?.map (fun decl => EntityKind.decode decl.kind) = some (.ok h.kind)
  location : decls.head?.map (·.location) = some h.location
  protection : decls.getLast?.bind (·.protection?) = some h.protection

namespace Heading.IsDeclaredBy

variable {h : Heading} {decls : List EntityDecl} {decl : EntityDecl} {p : Protection}

theorem singleton {name : String} {kind : EntityKind} (hkind : EntityKind.decode decl.kind = .ok kind)
    (hp : decl.protection? = some p) :
    ({ name, kind, location := decl.location, protection := p } : Heading).IsDeclaredBy [decl] where
  kind := congrArg some hkind
  location := rfl
  protection := hp

theorem concat (hdecls : h.IsDeclaredBy decls) (hp : decl.protection? = some p) :
    { h with protection := p }.IsDeclaredBy (decls ++ [decl]) := by
  obtain ⟨hkind, hlocation, -⟩ := hdecls
  cases decls with
  | nil => cases hkind
  | cons first rest =>
    refine ⟨hkind, hlocation, ?_⟩
    rw [List.getLast?_append]
    exact hp

end Heading.IsDeclaredBy

namespace Atlas

variable {a b : Atlas}

def heading? (a : Atlas) (id : EntityId) : Option Heading :=
  (a.entity? id).map (·.heading)

theorem Agrees.heading?_eq (h : Agrees Entity.heading a b) (id : EntityId) :
    b.heading? id = a.heading? id :=
  h.entity?_eq id

theorem KeepsSites.heading?_eq (h : a.KeepsSites b) {id : EntityId} {heading : Heading}
    (hid : a.heading? id = some heading) : b.heading? id = some heading := by
  obtain ⟨e, he, rfl⟩ := Option.map_eq_some_iff.mp hid
  obtain ⟨e', he', hsite⟩ := h.exists_entity he
  rw [heading?, he']
  exact congrArg (fun site => some site.1) hsite

theorem heading?_modifyEntity (a : Atlas) (id : EntityId) (p : Protection) (id' : EntityId) :
    (a.modifyEntity id fun e => { e with protection := p }).heading? id' =
      if id.slot = id'.slot then (a.heading? id').map fun h => { h with protection := p }
      else a.heading? id' :=
  a.read_modifyEntity id id' (r := Option.map Entity.heading) rfl fun _ => rfl

theorem heading?_register_of_none {name : String} (hname : a.find? name = none) (kind : EntityKind)
    (location : Location) :
    (a.register name kind location).1.heading? (a.register name kind location).2 =
      some { name, kind, location, protection := .pub } := by
  rw [heading?, entity?_register_of_none hname, register_snd_of_none hname,
    if_pos (EntityId.slot_ofSlot _)]
  rfl

end Atlas

namespace Build

open Atlas

/-! ## Registering -/

theorem heading?_registerAs (a : Atlas) (decl : EntityDecl) (kind : EntityKind) (p : Protection)
    (id : EntityId) :
    let registered := a.register decl.name kind decl.location
    (registerAs a decl kind p).value.1.heading? id =
      if registered.2.slot = id.slot then
        (registered.1.heading? id).map fun h => { h with protection := p }
      else registered.1.heading? id := by
  intro registered
  rw [← heading?_modifyEntity]
  exact ((agrees_site_registerAs a decl kind p).map Prod.fst).heading?_eq id

/-- What is known of headings while entities are registered. -/
def IsHeaded (state : Progress × List Declared) : Prop :=
  ∀ name id, state.1.atlas.find? name = some id →
    ∃ h, state.1.atlas.heading? id = some h ∧ h.name = name ∧
      h.IsDeclaredBy ((state.2.map (·.2)).filter (·.name == name))

variable {state : Progress × List Declared}

/-- An entity that is registered, or is there already, has a heading that goes with its declarations
once the protection is set. -/
theorem IsHeaded.heading?_register (h : IsHeaded state) (hregistry : IsRegistry state)
    {decl : EntityDecl} {kind : EntityKind} {p : Protection}
    (hkind : EntityKind.decode decl.kind = .ok kind) (hp : decl.protection? = some p) :
    let registered := state.1.atlas.register decl.name kind decl.location
    ∃ heading, registered.1.heading? registered.2 = some heading ∧ heading.name = decl.name ∧
      Heading.IsDeclaredBy { heading with protection := p }
        ((state.2.map (·.2)).filter (·.name == decl.name) ++ [decl]) := by
  intro registered
  cases hfind : state.1.atlas.find? decl.name with
  | some id =>
    obtain ⟨heading, hheading, hname, hdecls⟩ := h decl.name id hfind
    have heq : registered = (state.1.atlas, id) := register_of_some hfind kind decl.location
    rw [heq]
    exact ⟨heading, hheading, hname, hdecls.concat hp⟩
  | none =>
    -- There is no declaration of this name yet.
    have hnone : (state.2.map (·.2)).filter (·.name == decl.name) = [] := by
      rw [List.filter_eq_nil_iff]
      intro other hother heq
      have hfound : (state.1.atlas.find? decl.name).isSome = true := by
        rw [hregistry.found, ← beq_iff_eq.mp heq]
        obtain ⟨owner, howner, rfl⟩ := List.mem_map.mp hother
        exact List.mem_map_of_mem howner
      rw [hfind] at hfound
      cases hfound
    rw [hnone]
    exact ⟨_, heading?_register_of_none hfind kind decl.location, rfl, .singleton hkind hp⟩

/-- The step lemma: headings go with the declarations that were registered. -/
theorem IsHeaded.registerOne (h : IsHeaded state) (hregistry : IsRegistry state)
    (decl : EntityDecl) : IsHeaded (Build.registerOne state decl).value := by
  cases hdecl : decl.isUnderstood with
  | false =>
    rw [registerOne_of_not_isUnderstood hdecl]
    exact h
  | true =>
    obtain ⟨kind, p, hkind, hp⟩ := (isUnderstood_iff decl).mp hdecl
    have hread := heading?_registerAs state.1.atlas decl kind p
    have hfound := find?_register state.1.atlas decl.name kind decl.location
    have hkeeps := KeepsSites.register state.1.atlas decl.name kind decl.location
    obtain ⟨heading, hheading, hname, hdecls⟩ := h.heading?_register hregistry hkind hp
    rw [registerOne_of_words hkind hp]
    intro name id hfind
    rw [List.map_append, List.filter_append, List.map_singleton, List.filter_singleton, hread]
    rw [find?, (registerAs_eq state.1.atlas decl kind p).1] at hfind
    replace hfind := (hfound name).symm.trans hfind
    generalize state.1.atlas.register decl.name kind decl.location = registered
      at hheading hkeeps hfind
    split at hfind
    · next hsame =>
      cases hfind
      subst hsame
      refine ⟨{ heading with protection := p }, ?_, hname, ?_⟩
      · rw [if_pos rfl, hheading, Option.map_some]
      · rw [beq_self_eq_true]
        exact hdecls
    · next hother =>
      obtain ⟨heading', hheading', hname', hdecls'⟩ := h name id hfind
      have hkept := hkeeps.heading?_eq hheading'
      -- The entity of another name has another slot.
      have hne : ¬ registered.2.slot = id.slot := by
        intro hid
        rw [heading?, ← entity?_eq_of_slot registered.1 hid, ← heading?, hheading] at hkept
        cases hkept
        exact hother (hname'.symm.trans hname)
      refine ⟨heading', by rw [if_neg hne, hkept], hname', ?_⟩
      rw [beq_eq_false_iff_ne.mpr (Ne.symm hother), cond_false, List.append_nil]
      exact hdecls'

theorem isHeaded_registerAll (options : Options) (d : Document) :
    IsHeaded (registerAll { atlas := .empty options } d).value := by
  have hstart : IsHeaded ({ atlas := .empty options }, []) := by
    intro name id hfind
    simp [Atlas.empty, find?] at hfind
  have hboth := Noted.foldlM_kept
    (P := fun state => IsRegistry state ∧ IsHeaded state)
    (fun state decl hstate => ⟨hstate.1.registerOne decl, hstate.2.registerOne hstate.1 decl⟩)
    d.entities ⟨⟨rfl, fun name => by simp [Atlas.empty, find?], rfl, rfl, rfl⟩, hstart⟩
  exact hboth.2

/-! ## The whole build -/

theorem keepsHeading_run (options : Options) (d : Document) {name : String} {id : EntityId}
    {h : Heading}
    (hfind : (registerAll { atlas := .empty options } d).value.1.atlas.find? name = some id)
    (hid : (registerAll { atlas := .empty options } d).value.1.atlas.heading? id = some h) :
    (run options d).value.1.find? name = some id ∧ (run options d).value.1.heading? id = some h := by
  let registered := (registerAll { atlas := .empty options } d).value
  have hscopes := keepsSites_addScopes registered.1
  have hlinked : Agrees Entity.heading _ (linkScopes (addScopes registered.1)).atlas :=
    agrees_linkScopes (fun _ _ _ _ => rfl) (addScopes registered.1)
  have hmembers : Agrees Entity.heading _
      (addMembers (linkScopes (addScopes registered.1)) registered.2).value.atlas :=
    (sharesSkeleton_addMembers _ registered.2).view fun _ => rfl
  have hprepared := hlinked.trans hmembers
  have hrest := keepsSites_run options d
  constructor
  · apply hrest.names
    exact (hprepared.find?_eq name).trans (hscopes.names name id hfind)
  · apply hrest.heading?_eq
    exact (hprepared.heading?_eq id).trans (hscopes.heading?_eq hid)

/-- In the atlas that a build ends with, an entity that is declared has the kind and the location of
the first declaration of its name that is understood, and the protection of the last one. -/
theorem heading_of_declared (options : Options) (d : Document) {name : String}
    {first last : EntityDecl} (hfirst : (d.declarationsOf name).head? = some first)
    (hlast : (d.declarationsOf name).getLast? = some last) :
    let a := (run options d).value.1
    ∃ id e, a.find? name = some id ∧ a.entity? id = some e ∧ e.name = name ∧
      EntityKind.decode first.kind = .ok e.kind ∧ e.location = first.location ∧
      last.protection? = some e.protection := by
  have hdeclared := declared_registerAll { atlas := .empty options } d
  have hregistry := isRegistry_registerAll options d
  have hheaded := isHeaded_registerAll options d
  have hrun := @keepsHeading_run options d
  generalize (registerAll { atlas := .empty options } d).value = registered
    at hdeclared hregistry hheaded hrun
  have hfound : (registered.1.atlas.find? name).isSome = true := by
    obtain ⟨hmem, hname⟩ := List.mem_filter.mp (List.mem_of_head? hfirst)
    rw [← hdeclared] at hmem
    obtain ⟨owner, howner, rfl⟩ := List.mem_map.mp hmem
    rw [hregistry.found, ← beq_iff_eq.mp hname]
    exact List.mem_map_of_mem howner
  obtain ⟨id, hfind⟩ := Option.isSome_iff_exists.mp hfound
  obtain ⟨heading, hheading, hname, hdecls⟩ := hheaded name id hfind
  obtain ⟨hfind, hheading⟩ := hrun hfind hheading
  obtain ⟨e, he, rfl⟩ := Option.map_eq_some_iff.mp hheading
  rw [hdeclared, ← Document.declarationsOf] at hdecls
  obtain ⟨hkind, hlocation, hprotection⟩ := hdecls
  rw [hfirst] at hkind hlocation
  rw [hlast] at hprotection
  exact ⟨id, e, hfind, he, hname, Option.some.inj hkind, (Option.some.inj hlocation).symm,
    hprotection⟩

/-- A class is declared twice, after a declaration that is not understood: first as private, and then
without a word on protection, at another place and as another kind. -/
def reopened : Document where
  entities :=
    [{ name := "net::Socket", kind := "gadget", file := "old.h", line := 1 },
     { name := "net::Socket", kind := "class", protection := some "private", file := "socket.h",
       line := 3 },
     { name := "Pump", kind := "class", bases := [.plain "net::Socket"] },
     { name := "net::Socket", kind := "struct", file := "socket.cpp", line := 7 }]

/-- Kind and place are those of the first declaration that is understood. -/
theorem heading_of_declared_reopened :
    let first : EntityDecl :=
      { name := "net::Socket", kind := "class", protection := some "private", file := "socket.h",
        line := 3 }
    let last : EntityDecl :=
      { name := "net::Socket", kind := "struct", file := "socket.cpp", line := 7 }
    let a := (run {} reopened).value.1
    (reopened.declarationsOf "net::Socket").head? = some first ∧
      (reopened.declarationsOf "net::Socket").getLast? = some last ∧
      ∃ id e, a.find? "net::Socket" = some id ∧ a.entity? id = some e ∧ e.name = "net::Socket" ∧
        EntityKind.decode first.kind = .ok e.kind ∧ e.location = first.location ∧
        last.protection? = some e.protection := by
  refine ⟨?hfirst, ?hlast, heading_of_declared {} reopened ?hfirst ?hlast⟩
  all_goals decide +kernel

/-- The class that is declared as private becomes public. -/
theorem protection_lost_reopened :
    let a := (run {} reopened).value.1
    (reopened.declarationsOf "net::Socket").head?.bind (·.protection?) = some .priv ∧
      a.find? "net::Socket" = some ⟨1⟩ ∧ (a.entity? ⟨1⟩).map (·.protection) = some .pub := by
  decide +kernel

end Build

end SymbolAtlas
