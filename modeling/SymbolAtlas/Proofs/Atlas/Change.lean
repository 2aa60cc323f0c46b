import Mathlib.Logic.Relation
import SymbolAtlas.Proofs.Atlas.Relations
import SymbolAtlas.Proofs.Atlas.Upkeep

/-!
# Elementary changes

Everything that is done to an atlas comes down to a few changes of profiles: an entity is declared or
gets a protection, a class is linked to a base, a template gets an instance, a category is assigned
to a class, an extension gives a base away. An atlas is wired if all classes that classes refer to
are there; every change keeps it wired, and keeps what a class is an instance of and what instances
it has.
-/

set_option autoImplicit false

namespace SymbolAtlas

variable {id : EntityId} {edge : BaseEdge}

/-- The extended class gets a base of its extension, and the base lists it in place of the
extension. -/
def Relations.donated (id extension : EntityId) (edge : BaseEdge) (id' : EntityId) (r : Relations) :
    Relations :=
  { r with
    bases := if id.slot = id'.slot then r.bases ++ [edge] else r.bases
    derived :=
      if edge.target.slot = id'.slot then
        r.derived.map fun edge' =>
          if edge'.target = extension then { edge' with target := id } else edge'
      else r.derived }

/-- The category is assigned to a class. -/
def Relations.extending (category id id' : EntityId) (r : Relations) : Relations :=
  { r with categoryOf := if category.slot = id'.slot then some id else r.categoryOf }

namespace Atlas

/-- The profiles have been changed one by one. -/
structure Modifies (a b : Atlas) (f : EntityId → Profile → Profile) : Prop where
  options : b.options = a.options
  names : b.names = a.names
  profile : ∀ id, b.profile? id = (a.profile? id).map (f id)

/-- An entity has been added, and the other profiles have been changed one by one. -/
structure Adds (a b : Atlas) (new : Profile) (f : EntityId → Profile → Profile) : Prop where
  options : b.options = a.options
  size : b.entities.size = a.entities.size + 1
  profile : ∀ id, b.profile? id =
    if id.slot = a.entities.size then some new else (a.profile? id).map (f id)

/-- An elementary change. A strict one gives a protection only to what has no bases yet, and has
nothing to do with categories. -/
inductive Change (isStrict : Bool) (a b : Atlas) : Prop where
  | keep (h : a.Modifies b fun _ p => p)
  | protect (id : EntityId) (protection : Protection) (hopen : isStrict = true → a.bases id = [])
      (h : a.Modifies b fun id' p => if id.slot = id'.slot then { p with protection } else p)
  | link (child : EntityId) (edge : BaseEdge) (hchild : a.HoldsClass child)
      (hparent : a.HoldsClass edge.target) (hne : edge.target ≠ child)
      (h : a.Modifies b fun id => Profile.mapRelations (a.linked child edge id))
  | extend (category id : EntityId) (hstrict : isStrict = false) (hid : a.HoldsClass id)
      (h : a.Modifies b fun id' => Profile.mapRelations (.extending category id id'))
  | donate (id extension : EntityId) (edge : BaseEdge) (hstrict : isStrict = false)
      (hid : a.HoldsClass id) (hparent : a.HoldsClass edge.target)
      (h : a.Modifies b fun id' => Profile.mapRelations (.donated id extension edge id'))
  | declare (name : String) (kind : EntityKind)
      (hnames : b.names = a.names ∨
        a.find? name = none ∧ b.names = a.names.insert name (.ofSlot a.entities.size))
      (h : a.Adds b
        { name, kind
          protection := .pub
          relations? := if kind.isNamespaceLike then none else some .empty } fun _ p => p)
  | spawn (table : Cache) (template : EntityId) (key name : String) (kind : EntityKind)
      (htemplate : a.HoldsClass template) (hkind : kind.isNamespaceLike = false)
      (hkey : Text.normalized key = key)
      (hfree : ∀ r, a.relations? (a.genericOf template) = some r → (r.cache table).get? key = none)
      (hnames : b.names = a.names)
      (h : a.Adds b
        { name, kind
          protection := .pub
          relations? := some (.ofInstance (a.genericOf template)) } fun id p =>
        if (a.genericOf template).slot = id.slot then
          p.mapRelations (·.listing table key (.ofSlot a.entities.size))
        else p)

/-- One elementary change after the other. -/
abbrev Changes (isStrict : Bool) : Atlas → Atlas → Prop :=
  Relation.ReflTransGen (Change isStrict)

/-! ## What a change keeps -/

end Atlas

/-- The same template, and all instances that were there. -/
structure Family.Grows (f f' : Family) : Prop where
  templateMaster : f'.templateMaster = f.templateMaster
  cache : ∀ table key id, (f.cache table).get? key = some id → (f'.cache table).get? key = some id

/-- The same name and kind, and more relations. -/
structure Profile.Grows (p p' : Profile) : Prop where
  name : p'.name = p.name
  kind : p'.kind = p.kind
  relations : Option.Rel (fun r r' => r.toFamily.Grows r'.toFamily) p.relations? p'.relations?

theorem Family.Grows.refl (f : Family) : f.Grows f :=
  ⟨rfl, fun _ _ _ h => h⟩

theorem Family.Grows.trans {f f' f'' : Family} (h : f.Grows f') (h' : f'.Grows f'') : f.Grows f'' :=
  ⟨h'.templateMaster.trans h.templateMaster,
    fun table key id hget => h'.cache table key id (h.cache table key id hget)⟩

theorem Profile.grows_mapRelations (p : Profile) {f : Relations → Relations}
    (hf : ∀ r, p.relations? = some r → r.toFamily.Grows (f r).toFamily) :
    p.Grows (p.mapRelations f) := by
  refine ⟨rfl, rfl, ?_⟩
  unfold mapRelations
  cases hr : p.relations? with
  | none => exact .none
  | some r => exact .some (hf r hr)

theorem Profile.Grows.refl (p : Profile) : p.Grows p := by
  refine ⟨rfl, rfl, ?_⟩
  cases p.relations? with
  | none => exact .none
  | some r => exact .some (.refl _)

theorem Family.grows_listing {f : Family} {table : Cache} {key : String}
    (hfree : (f.cache table).get? key = none) (id : EntityId) : f.Grows (f.listing table key id) := by
  refine ⟨rfl, fun table' key' id' hget => ?_⟩
  rw [get?_listing, if_neg]
  · exact hget
  · rintro ⟨rfl, rfl⟩
    rw [hfree] at hget
    cases hget

namespace Atlas

variable {a b c : Atlas} {isStrict : Bool}

theorem Modifies.size {f : EntityId → Profile → Profile} (h : a.Modifies b f) :
    b.entities.size = a.entities.size := by
  have hslot (slot : Nat) : slot < b.entities.size ↔ slot < a.entities.size := by
    rw [← EntityId.slot_ofSlot slot, ← isSome_profile?_iff, ← isSome_profile?_iff, h.profile,
      Option.isSome_map]
  have hb := hslot b.entities.size
  have ha := hslot a.entities.size
  omega

theorem Modifies.relations?_eq {g : EntityId → Relations → Relations}
    (h : a.Modifies b fun id => Profile.mapRelations (g id)) (id : EntityId) :
    b.relations? id = (a.relations? id).map (g id) := by
  rw [relations?_eq_profile?, relations?_eq_profile?, h.profile, Option.bind_map, Option.map_bind]
  rfl

namespace Change

theorem options (h : Change isStrict a b) : b.options = a.options := by
  cases h with
  | keep h | protect _ _ _ h | link _ _ _ _ _ h | extend _ _ _ _ h | donate _ _ _ _ _ _ h =>
    exact h.options
  | declare _ _ _ h | spawn _ _ _ _ _ _ _ _ _ _ h => exact h.options

theorem size_le (h : Change isStrict a b) : a.entities.size ≤ b.entities.size := by
  cases h with
  | keep h | protect _ _ _ h | link _ _ _ _ _ h | extend _ _ _ _ h | donate _ _ _ _ _ _ h =>
    exact Nat.le_of_eq h.size.symm
  | declare _ _ _ h | spawn _ _ _ _ _ _ _ _ _ _ h => exact h.size ▸ Nat.le_succ _

theorem grows (h : Change isStrict a b) {p : Profile} (hp : a.profile? id = some p) :
    ∃ p', b.profile? id = some p' ∧ p.Grows p' := by
  have hold : id.slot ≠ a.entities.size := by
    have hlt := (a.isSome_profile?_iff id).mp (by rw [hp]; rfl)
    omega
  have hmodified {f : EntityId → Profile → Profile} (h : a.Modifies b f) (hf : p.Grows (f id p)) :
      ∃ p', b.profile? id = some p' ∧ p.Grows p' :=
    ⟨f id p, by rw [h.profile, hp]; rfl, hf⟩
  have hadded {new : Profile} {f : EntityId → Profile → Profile} (h : a.Adds b new f)
      (hf : p.Grows (f id p)) : ∃ p', b.profile? id = some p' ∧ p.Grows p' :=
    ⟨f id p, by rw [h.profile, if_neg hold, hp]; rfl, hf⟩
  cases h with
  | keep h => exact hmodified h (.refl p)
  | protect id' q _ h =>
    refine hmodified h ?_
    split
    · exact ⟨rfl, rfl, (Profile.Grows.refl p).relations⟩
    · exact .refl p
  | link _ _ _ _ _ h | extend _ _ _ _ h | donate _ _ _ _ _ _ h =>
    exact hmodified h (p.grows_mapRelations fun r _ => .refl _)
  | declare name kind _ h => exact hadded h (.refl p)
  | spawn table template key name kind _ _ _ hfree _ h =>
    refine hadded h ?_
    split
    · next hslot =>
      refine p.grows_mapRelations fun r hr => Family.grows_listing (hfree r ?_) _
      rw [a.relations?_eq_of_slot hslot, relations?_of_profile? hp]
      exact hr
    · exact .refl p

end Change

namespace Changes

variable (h : Changes isStrict a b)

include h

theorem options : b.options = a.options := by
  induction h with
  | refl => rfl
  | tail _ hstep ih => exact hstep.options.trans ih

theorem size_le : a.entities.size ≤ b.entities.size := by
  induction h with
  | refl => exact Nat.le_refl _
  | tail _ hstep ih => exact Nat.le_trans ih hstep.size_le

theorem grows {r : Relations} (hr : a.relations? id = some r) :
    ∃ r', b.relations? id = some r' ∧ r.toFamily.Grows r'.toFamily := by
  induction h with
  | refl => exact ⟨r, hr, .refl _⟩
  | tail _ hstep ih =>
    obtain ⟨r', hr', hgrows⟩ := ih
    rw [relations?_eq_profile?] at hr'
    obtain ⟨p, hp, hpr⟩ := Option.bind_eq_some_iff.mp hr'
    obtain ⟨p', hp', hgrows'⟩ := hstep.grows hp
    obtain ⟨r'', hr'', hgrows''⟩ := exists_of_rel_left hgrows'.relations hpr
    exact ⟨r'', (relations?_of_profile? hp').trans hr'', hgrows.trans hgrows''⟩

theorem holdsClass (hid : a.HoldsClass id) : b.HoldsClass id := by
  obtain ⟨hpos, r, hr⟩ := holdsClass_iff.mp hid
  obtain ⟨r', hr', -⟩ := h.grows hr
  exact holdsClass_iff.mpr ⟨hpos, r', hr'⟩

theorem genericOf_eq (hid : a.HoldsClass id) : b.genericOf id = a.genericOf id := by
  obtain ⟨-, r, hr⟩ := holdsClass_iff.mp hid
  obtain ⟨r', hr', hgrows⟩ := h.grows hr
  rw [genericOf_eq_relations?, genericOf_eq_relations?, hr, hr', Option.bind_some, Option.bind_some,
    hgrows.templateMaster]

end Changes

end Atlas

/-! ## Wiring -/

/-- The classes that a class refers to are there. -/
structure Relations.IsWired (r : Relations) (a : Atlas) : Prop where
  bases : ∀ edge ∈ r.bases, a.HoldsClass edge.target
  derived : ∀ edge ∈ r.derived, a.HoldsClass edge.target
  categoryOf : ∀ id ∈ r.categoryOf, a.HoldsClass id
  templateMaster : ∀ id ∈ r.templateMaster, a.HoldsClass id
  cache : ∀ table, (r.cache table).All a.HoldsClass

namespace Atlas

variable {a b c : Atlas} {isStrict : Bool}

/-- Registered entities are there, kinds say what is a class, and the classes that classes refer to
are there. -/
structure IsWired (a : Atlas) : Prop where
  names : ∀ name id, a.find? name = some id → a.Holds id
  kinds : ∀ id p, a.profile? id = some p → p.relations?.isSome = !p.kind.isNamespaceLike
  relations : ∀ id r, a.relations? id = some r → r.IsWired a

theorem IsWired.empty (options : Options) : (Atlas.empty options).IsWired where
  names name id h := by cases h
  kinds id p h := by simp [profile?, entity?, Atlas.empty] at h
  relations id r h := by simp [relations?, class?, entity?, Atlas.empty] at h

theorem IsWired.holdsClass_genericOf (h : a.IsWired) (hid : a.HoldsClass id) :
    a.HoldsClass (a.genericOf id) := by
  obtain ⟨-, r, hr⟩ := holdsClass_iff.mp hid
  rw [genericOf_eq_relations?, hr, Option.bind_some]
  cases hmaster : r.templateMaster with
  | none => exact hid
  | some master => exact (h.relations id r hr).templateMaster master hmaster

theorem IsWired.holdsClass_of_mem_bases (h : a.IsWired) (hedge : edge ∈ a.bases id) :
    a.HoldsClass edge.target := by
  rw [bases_eq_relations?] at hedge
  cases hr : a.relations? id with
  | none => simp [hr] at hedge
  | some r =>
    rw [hr] at hedge
    exact (h.relations id r hr).bases edge hedge

end Atlas

namespace Relations.IsWired

open Atlas

variable {a b : Atlas} {r : Relations}

theorem mono (h : r.IsWired a) (hab : ∀ id, a.HoldsClass id → b.HoldsClass id) : r.IsWired b where
  bases edge hedge := hab _ (h.bases edge hedge)
  derived edge hedge := hab _ (h.derived edge hedge)
  categoryOf id hid := hab _ (h.categoryOf id hid)
  templateMaster id hid := hab _ (h.templateMaster id hid)
  cache table := (h.cache table).mono hab

theorem empty (a : Atlas) : Relations.empty.IsWired a where
  bases edge hedge := by cases hedge
  derived edge hedge := by cases hedge
  categoryOf id hid := by cases hid
  templateMaster id hid := by cases hid
  cache table := .empty _

theorem ofInstance {generic : EntityId} (h : a.HoldsClass generic) :
    (Relations.ofInstance generic).IsWired a where
  bases edge hedge := by cases hedge
  derived edge hedge := by cases hedge
  categoryOf id hid := by cases hid
  templateMaster id hid := by
    cases hid
    exact h
  cache table := .empty _

variable (h : r.IsWired a) (table : Cache) (key : String)

include h

theorem append (hedge : a.HoldsClass edge.target) :
    ∀ edge' ∈ r.bases ++ [edge], a.HoldsClass edge'.target := by
  intro edge' hedge'
  rcases List.mem_append.mp hedge' with hedge' | hedge'
  · exact h.bases edge' hedge'
  · rw [List.mem_singleton.mp hedge']
    exact hedge

theorem linked {child : EntityId} (hchild : a.HoldsClass child) (hparent : a.HoldsClass edge.target)
    (b : Atlas) (id : EntityId) : (b.linked child edge id r).IsWired a where
  bases := by
    unfold Atlas.linked
    split
    · exact h.append hparent
    · exact h.bases
  derived := by
    unfold Atlas.linked
    dsimp only
    split
    · exact b.forall_mem_insertDerived hchild h.derived
    · exact h.derived
  categoryOf := h.categoryOf
  templateMaster := h.templateMaster
  cache := h.cache

theorem extending (category : EntityId) (hid : a.HoldsClass id) (id' : EntityId) :
    (Relations.extending category id id' r).IsWired a where
  bases := h.bases
  derived := h.derived
  categoryOf := by
    unfold Relations.extending
    split
    · rintro _ ⟨⟩
      exact hid
    · exact h.categoryOf
  templateMaster := h.templateMaster
  cache := h.cache

theorem donated (hid : a.HoldsClass id) (extension : EntityId) (hparent : a.HoldsClass edge.target)
    (id' : EntityId) : (Relations.donated id extension edge id' r).IsWired a where
  bases := by
    unfold Relations.donated
    split
    · exact h.append hparent
    · exact h.bases
  derived := by
    unfold Relations.donated
    dsimp only
    split
    · intro edge' hedge'
      obtain ⟨old, hold, rfl⟩ := List.mem_map.mp hedge'
      split
      · exact hid
      · exact h.derived old hold
    · exact h.derived
  categoryOf := h.categoryOf
  templateMaster := h.templateMaster
  cache := h.cache

theorem listing (hid : a.HoldsClass id) : (r.listing table key id).IsWired a where
  bases := h.bases
  derived := h.derived
  categoryOf := h.categoryOf
  templateMaster := h.templateMaster
  cache table' := by
    unfold Relations.listing Family.listing
    dsimp only
    split
    · exact (h.cache table').insert key hid
    · exact h.cache table'

end Relations.IsWired

namespace Atlas

variable {a b c : Atlas} {isStrict : Bool}
variable {f : EntityId → Profile → Profile}

/-- The profile keeps its kind, stays that of a class or of a namespace, and stays wired. -/
structure KeepsWired (a : Atlas) (p p' : Profile) : Prop where
  kind : p'.kind = p.kind
  isSome : p'.relations?.isSome = p.relations?.isSome
  relations : (∀ r ∈ p.relations?, r.IsWired a) → ∀ r ∈ p'.relations?, r.IsWired a

theorem KeepsWired.refl (a : Atlas) (p : Profile) : a.KeepsWired p p :=
  ⟨rfl, rfl, fun h => h⟩

theorem keepsWired_mapRelations (p : Profile) {f : Relations → Relations}
    (hf : ∀ r, r.IsWired a → (f r).IsWired a) : a.KeepsWired p (p.mapRelations f) where
  kind := rfl
  isSome := Option.isSome_map
  relations h r hr := by
    obtain ⟨r', hr', rfl⟩ := Option.map_eq_some_iff.mp hr
    exact hf r' (h r' hr')

theorem IsWired.of_profile? (ha : a.IsWired) (hab : ∀ id, a.HoldsClass id → b.HoldsClass id)
    {p p' : Profile} (hp : a.profile? id = some p) (h : b.KeepsWired p p') :
    p'.relations?.isSome = (!p'.kind.isNamespaceLike) ∧ ∀ r ∈ p'.relations?, r.IsWired b := by
  constructor
  · rw [h.isSome, h.kind]
    exact ha.kinds id p hp
  · refine h.relations fun r hr => (ha.relations id r ?_).mono hab
    exact (relations?_of_profile? hp).trans hr

theorem IsWired.of_all (hnames : ∀ name id, b.find? name = some id → b.Holds id)
    (h : ∀ id p, b.profile? id = some p →
      p.relations?.isSome = (!p.kind.isNamespaceLike) ∧ ∀ r ∈ p.relations?, r.IsWired b) :
    b.IsWired where
  names := hnames
  kinds id p hp := (h id p hp).1
  relations id r hr := by
    rw [relations?_eq_profile?] at hr
    obtain ⟨p, hp, hr⟩ := Option.bind_eq_some_iff.mp hr
    exact (h id p hp).2 r hr

theorem IsWired.modifies (ha : a.IsWired) (hab : ∀ id, a.HoldsClass id → b.HoldsClass id)
    (h : a.Modifies b f) (hf : ∀ id p, b.KeepsWired p (f id p)) : b.IsWired := by
  refine .of_all (fun name id hfind => ?_) fun id p hp => ?_
  · rw [find?, h.names] at hfind
    exact (ha.names name id hfind).mono (Nat.le_of_eq h.size.symm)
  · rw [h.profile] at hp
    obtain ⟨p', hp', rfl⟩ := Option.map_eq_some_iff.mp hp
    exact ha.of_profile? hab hp' (hf id p')

theorem IsWired.adds (ha : a.IsWired) (hab : ∀ id, a.HoldsClass id → b.HoldsClass id)
    {new : Profile} (h : a.Adds b new f) (hnames : ∀ name id, b.find? name = some id →
      a.find? name = some id ∨ id = .ofSlot a.entities.size)
    (hnew : new.relations?.isSome = (!new.kind.isNamespaceLike) ∧
      ∀ r ∈ new.relations?, r.IsWired b) (hf : ∀ id p, b.KeepsWired p (f id p)) : b.IsWired := by
  refine .of_all (fun name id hfind => ?_) fun id p hp => ?_
  · rcases hnames name id hfind with hfind | rfl
    · exact (ha.names name id hfind).mono (h.size ▸ Nat.le_succ _)
    · exact holds_ofSlot (h.size ▸ Nat.lt_succ_self _)
  · rw [h.profile] at hp
    split at hp
    · cases hp
      exact hnew
    · obtain ⟨p', hp', rfl⟩ := Option.map_eq_some_iff.mp hp
      exact ha.of_profile? hab hp' (hf id p')

theorem Adds.holdsClass {new : Profile} (h : a.Adds b new f) {r : Relations}
    (hr : new.relations? = some r) : b.HoldsClass (.ofSlot a.entities.size) := by
  have hprofile := h.profile (.ofSlot a.entities.size)
  rw [EntityId.slot_ofSlot, if_pos rfl] at hprofile
  exact holdsClass_iff.mpr ⟨Nat.succ_pos _, r, (relations?_of_profile? hprofile).trans hr⟩

theorem Change.holdsClass (h : Change isStrict a b) (hid : a.HoldsClass id) : b.HoldsClass id :=
  Changes.holdsClass (.single h) hid

/-- A change leaves every number in a relation that of a class. -/
theorem Change.isWired (h : Change isStrict a b) (ha : a.IsWired) : b.IsWired := by
  have hab : ∀ id, a.HoldsClass id → b.HoldsClass id := fun id => h.holdsClass
  cases h with
  | keep h => exact ha.modifies hab h fun _ p => .refl b p
  | protect id q _ h =>
    refine ha.modifies hab h fun id' p => ?_
    split
    · exact ⟨rfl, rfl, fun hp => hp⟩
    · exact .refl b p
  | link child edge hchild hparent _ h =>
    exact ha.modifies hab h fun id p => keepsWired_mapRelations p fun r hr =>
      hr.linked (hab _ hchild) (hab _ hparent) a id
  | extend category id _ hid h =>
    exact ha.modifies hab h fun id' p => keepsWired_mapRelations p fun r hr =>
      hr.extending category (hab _ hid) id'
  | donate id extension edge _ hid hparent h =>
    exact ha.modifies hab h fun id' p => keepsWired_mapRelations p fun r hr =>
      hr.donated (hab _ hid) extension (hab _ hparent) id'
  | declare name kind hnames h =>
    refine ha.adds hab h (fun name' id hfind => ?_) ?_ fun _ p => .refl b p
    · rcases hnames with hnames | ⟨-, hnames⟩
      · exact .inl (by rwa [find?, hnames] at hfind)
      · rw [find?, hnames, Dict.get?_insert] at hfind
        split at hfind
        · exact .inr (Option.some.inj hfind).symm
        · exact .inl hfind
    · cases kind.isNamespaceLike with
      | true => exact ⟨rfl, fun r hr => by cases hr⟩
      | false =>
        refine ⟨rfl, fun r hr => ?_⟩
        cases hr
        exact .empty b
  | spawn table template key name kind htemplate hkind _ _ hnames h =>
    have hnew := h.holdsClass rfl
    refine ha.adds hab h (fun name' id hfind => ?_) ⟨?_, fun r hr => ?_⟩ fun id p => ?_
    · exact .inl (by rwa [find?, hnames] at hfind)
    · rw [hkind]
      rfl
    · cases hr
      exact .ofInstance (hab _ (ha.holdsClass_genericOf htemplate))
    · split
      · exact keepsWired_mapRelations p fun r hr => hr.listing table key hnew
      · exact .refl b p

theorem Changes.isWired (h : Changes isStrict a b) (ha : a.IsWired) : b.IsWired := by
  induction h with
  | refl => exact ha
  | tail _ hstep ih => exact hstep.isWired ih

end Atlas

end SymbolAtlas
