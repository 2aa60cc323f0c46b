import SymbolAtlas.Proofs.Atlas.Integrity

/-!
# Relations between classes

A class lists its bases and the classes derived from it, names the template that it is an instance
of and the class that it is a category of, and keeps its own instances in two tables. Together with
names, kinds and protections, that is all that a change of relations depends on. Whatever is done with
members leaves it as it is.
-/

set_option autoImplicit false

namespace SymbolAtlas

variable {f : ClassBody → ClassBody}

/-- The tables in which a template keeps its instances. -/
inductive Cache where
  | instances
  | variables
deriving DecidableEq

/-- A derived class as its base lists it. -/
def BaseEdge.toDerived (edge : BaseEdge) (child : EntityId) : BaseEdge :=
  { edge with target := child, usedName := none }

/-- What ties templates and instances together. -/
structure Family where
  templateMaster : Option EntityId
  cache : Cache → Dict EntityId

/-- What a class says of other classes. -/
structure Relations extends Family where
  bases : List BaseEdge
  derived : List BaseEdge
  categoryOf : Option EntityId

/-- What changes of relations depend on. -/
structure Profile where
  name : String
  kind : EntityKind
  protection : Protection
  /-- The relations of a class; a namespace has none. -/
  relations? : Option Relations

def ClassBody.relations (c : ClassBody) : Relations where
  templateMaster := c.templateMaster
  cache
    | .instances => c.instances
    | .variables => c.variableInstances
  bases := c.bases
  derived := c.derived
  categoryOf := c.categoryOf

def Entity.profile (e : Entity) : Profile where
  name := e.name
  kind := e.kind
  protection := e.protection
  relations? := e.class?.map (·.relations)

namespace Family

/-- The class is no instance and has none. -/
def alone : Family where
  templateMaster := none
  cache _ := .empty

/-- The class is an instance and has none. -/
def ofInstance (generic : EntityId) : Family :=
  { alone with templateMaster := some generic }

/-- The class with one more instance. -/
def listing (f : Family) (table : Cache) (key : String) (id : EntityId) : Family :=
  { f with cache := fun table' =>
      if table' = table then (f.cache table').insert key id else f.cache table' }

theorem get?_listing (f : Family) (table table' : Cache) (key key' : String) (id : EntityId) :
    ((f.listing table key id).cache table').get? key' =
      if table' = table ∧ key' = key then some id else (f.cache table').get? key' := by
  unfold listing
  by_cases htable : table' = table
  · simp [htable, Dict.get?_insert]
  · simp [htable]

end Family

namespace Relations

/-- No relations. -/
def empty : Relations :=
  { Family.alone with bases := [], derived := [], categoryOf := none }

/-- The relations of a new instance. -/
def ofInstance (generic : EntityId) : Relations :=
  { Family.ofInstance generic with bases := [], derived := [], categoryOf := none }

/-- The relations of a template with one more instance. -/
def listing (r : Relations) (table : Cache) (key : String) (id : EntityId) : Relations :=
  { r with toFamily := r.toFamily.listing table key id }

end Relations

theorem ClassBody.relations_withInstance (c : ClassBody) (key : String) (id : EntityId) :
    { c with instances := c.instances.insert key id }.relations =
      c.relations.listing .instances key id := by
  unfold relations Relations.listing Family.listing
  simp only [Relations.mk.injEq, Family.mk.injEq, true_and, and_true]
  funext table
  cases table <;> rfl

theorem ClassBody.relations_withVariableInstance (c : ClassBody) (key : String) (id : EntityId) :
    { c with variableInstances := c.variableInstances.insert key id }.relations =
      c.relations.listing .variables key id := by
  unfold relations Relations.listing Family.listing
  simp only [Relations.mk.injEq, Family.mk.injEq, true_and, and_true]
  funext table
  cases table <;> rfl

/-- The profile with changed relations. -/
def Profile.mapRelations (f : Relations → Relations) (p : Profile) : Profile :=
  { p with relations? := p.relations?.map f }

namespace Entity

variable (e : Entity)

theorem profile_skeleton : e.skeleton.profile = e.profile := by
  unfold skeleton profile class?
  cases e.body <;> rfl

theorem profile_modifyClass (e : Entity) {g : Relations → Relations}
    (hf : ∀ c, (f c).relations = g c.relations) :
    (e.modifyClass f).profile = e.profile.mapRelations g := by
  unfold profile Profile.mapRelations
  rw [e.map_class?_modifyClass hf]
  unfold modifyClass
  cases e.body <;> rfl

theorem profile_modifyClass_of_eq (hf : ∀ c, (f c).relations = c.relations) :
    (e.modifyClass f).profile = e.profile := by
  rw [e.profile_modifyClass (g := fun r => r) hf]
  simp [Profile.mapRelations]

theorem profile_modifyNamespace (f : NamespaceBody → NamespaceBody) :
    (e.modifyNamespace f).profile = e.profile := by
  unfold profile
  rw [class?_modifyNamespace]
  unfold modifyNamespace
  split <;> rfl

end Entity

namespace Atlas

/-- The profile of the entity with a number. -/
def profile? (a : Atlas) (id : EntityId) : Option Profile :=
  (a.entity? id).map (·.profile)

/-- The relations of the class with a number. -/
def relations? (a : Atlas) (id : EntityId) : Option Relations :=
  (a.class? id).map (·.relations)

variable {a b : Atlas}
variable {id : EntityId}

/-! ## Reading -/

section

variable (a : Atlas) (id : EntityId)

theorem relations?_eq_profile? : a.relations? id = (a.profile? id).bind (·.relations?) := by
  unfold relations? profile? class?
  cases a.entity? id <;> rfl

theorem name_eq_profile? : a.name id = ((a.profile? id).map (·.name)).getD "" := by
  unfold name profile?
  rw [Option.map_map]
  rfl

theorem bases_eq_relations? : a.bases id = ((a.relations? id).map (·.bases)).getD [] := by
  unfold bases relations?
  rw [Option.map_map]
  rfl

theorem derived_eq_relations? : a.derived id = ((a.relations? id).map (·.derived)).getD [] := by
  unfold derived relations?
  rw [Option.map_map]
  rfl

theorem genericOf_eq_relations? :
    a.genericOf id = ((a.relations? id).bind (·.templateMaster)).getD id := by
  unfold genericOf relations?
  rw [Option.bind_map]
  rfl

theorem isSome_profile?_iff : (a.profile? id).isSome = true ↔ id.slot < a.entities.size := by
  unfold profile? entity?
  simp

end

theorem relations?_of_profile? {p : Profile} (h : a.profile? id = some p) :
    a.relations? id = p.relations? := by
  rw [relations?_eq_profile?, h]
  rfl

theorem slot_lt_of_relations? {r : Relations} (h : a.relations? id = some r) :
    id.slot < a.entities.size := by
  rw [relations?_eq_profile?] at h
  obtain ⟨p, hp, -⟩ := Option.bind_eq_some_iff.mp h
  rw [← isSome_profile?_iff, hp]
  rfl

theorem relations?_eq_of_slot (a : Atlas) {id' : EntityId} (h : id.slot = id'.slot) :
    a.relations? id = a.relations? id' := by
  unfold relations? class?
  rw [a.entity?_eq_of_slot h]

theorem holdsClass_iff : a.HoldsClass id ↔ 0 < id.number ∧ ∃ r, a.relations? id = some r := by
  unfold HoldsClass relations? class?
  cases he : a.entity? id with
  | none => simp
  | some e => simp [Entity.isClass, Option.isSome_iff_exists]

theorem holdsClass_of_requireClass {c : ClassBody} (hpos : 0 < id.number)
    (h : a.requireClass id = .ok c) : a.HoldsClass id :=
  holdsClass_iff.mpr ⟨hpos, c.relations, by rw [relations?, class?_of_requireClass h]; rfl⟩

theorem holdsClass_and_class? (a : Atlas) (id : EntityId) (hpos : 0 < id.number)
    (h : (a.class? id).isSome = true) : a.HoldsClass id ∧ ∃ c, a.class? id = some c := by
  obtain ⟨c, hc⟩ := Option.isSome_iff_exists.mp h
  exact ⟨holdsClass_iff.mpr ⟨hpos, c.relations, by rw [relations?, hc]; rfl⟩, c, hc⟩

/-! ## Changing -/

theorem Agrees.profile?_eq (h : Agrees Entity.profile a b) (id : EntityId) :
    b.profile? id = a.profile? id :=
  h.entity?_eq id

theorem SharesSkeleton.profile (h : a.SharesSkeleton b) : Agrees Entity.profile a b :=
  h.view Entity.profile_skeleton

theorem profile?_modifyClass (a : Atlas) (id id' : EntityId) {g : Relations → Relations}
    (hf : ∀ c, (f c).relations = g c.relations) : (a.modifyClass id f).profile? id' =
      if id.slot = id'.slot then (a.profile? id').map (·.mapRelations g) else a.profile? id' :=
  a.read_modifyEntity id id' (r := Option.map Entity.profile) rfl fun e =>
    congrArg some (e.profile_modifyClass hf)

theorem profile?_allocate (a : Atlas) (name : String) (kind : EntityKind) (location : Location)
    (id : EntityId) :
    (a.allocate name kind location).1.profile? id =
      if id.slot = a.entities.size then
        some {
          name, kind
          protection := .pub
          relations? := if kind.isNamespaceLike then none else some .empty }
      else a.profile? id := by
  unfold profile?
  rw [entity?_allocate]
  split
  · rw [Option.map_some]
    unfold Entity.profile Entity.declare Entity.class?
    cases kind.isNamespaceLike with
    | true => rfl
    | false =>
      congr 2
      unfold ClassBody.relations Relations.empty Family.alone
      simp only [Bool.false_eq_true, if_false, Option.map_some, Option.some.injEq,
        Relations.mk.injEq, Family.mk.injEq, true_and, and_true]
      funext table
      cases table <;> rfl
  · rfl

/-! ## Linking -/

/-- Whether a class is to be listed with the classes it is derived from. -/
def isListed (a : Atlas) (child : EntityId) : Bool :=
  (a.entity? child).any fun e => !(e.protection == .priv && !a.options.extractPrivate)

theorem isListed_eq_profile? (a : Atlas) (child : EntityId) :
    a.isListed child =
      (a.profile? child).any fun p => !(p.protection == .priv && !a.options.extractPrivate) := by
  unfold isListed profile?
  rw [Option.any_map]
  rfl

theorem insertDerived_congr (h : ∀ id, b.name id = a.name id) (edge : BaseEdge)
    (edges : List BaseEdge) : b.insertDerived edge edges = a.insertDerived edge edges := by
  induction edges with
  | nil => rfl
  | cons other rest ih =>
    unfold insertDerived
    rw [h, h, ih]

theorem linkDerived_eq (a : Atlas) (parent : EntityId) (edge : BaseEdge) :
    a.linkDerived parent edge =
      if a.isListed edge.target = true then
        a.modifyClass parent fun c =>
          { c with derived := a.insertDerived edge c.derived, isSimple := false }
      else a := by
  unfold linkDerived isListed
  cases a.entity? edge.target with
  | none => rfl
  | some e =>
    rw [Option.any_some]
    dsimp only
    cases e.protection == .priv && !a.options.extractPrivate <;> rfl

/-- What a new base edge does to the relations of a class. -/
def linked (a : Atlas) (child : EntityId) (edge : BaseEdge) (id : EntityId) (r : Relations) :
    Relations :=
  { r with
    bases := if child.slot = id.slot then r.bases ++ [edge] else r.bases
    derived :=
      if edge.target.slot = id.slot ∧ a.isListed child = true then
        a.insertDerived (edge.toDerived child) r.derived
      else r.derived }

/-- A base link touches the profiles of its two ends only. -/
theorem profile?_linkBase (a : Atlas) {child : EntityId} {edge : BaseEdge}
    (h : edge.target ≠ child) (id : EntityId) :
    (a.linkBase child edge).value.profile? id =
      (a.profile? id).map (·.mapRelations (a.linked child edge id)) := by
  have hvalue : (a.linkBase child edge).value =
      (a.modifyClass child fun c => { c with bases := c.bases ++ [edge], isSimple := false
        }).linkDerived edge.target (edge.toDerived child) := by
    unfold linkBase
    rw [if_neg h]
    rfl
  have hfirst (id : EntityId) := a.profile?_modifyClass child id
    (f := fun c => { c with bases := c.bases ++ [edge], isSimple := false })
    (g := fun r => { r with bases := r.bases ++ [edge] }) (by intro c; rfl)
  have hoptions : (a.modifyClass child fun c =>
      { c with bases := c.bases ++ [edge], isSimple := false }).options = a.options := rfl
  rw [hvalue]
  generalize a.modifyClass child _ = b at hfirst hoptions
  have hname (id : EntityId) : b.name id = a.name id := by
    rw [name_eq_profile?, name_eq_profile?, hfirst]
    split
    · rw [Option.map_map]
      rfl
    · rfl
  have hlisted : b.isListed child = a.isListed child := by
    rw [isListed_eq_profile?, isListed_eq_profile?, hfirst, hoptions, if_pos rfl, Option.any_map]
    rfl
  have hsecond := b.profile?_modifyClass edge.target id
    (f := fun c =>
      { c with derived := b.insertDerived (edge.toDerived child) c.derived, isSimple := false })
    (g := fun r => { r with derived := b.insertDerived (edge.toDerived child) r.derived })
    (by intro c; rfl)
  rw [linkDerived_eq]
  unfold linked
  simp only [insertDerived_congr hname] at hsecond ⊢
  have htarget : (edge.toDerived child).target = child := rfl
  rw [htarget, hlisted]
  cases hc : a.isListed child with
  | false =>
    rw [if_neg Bool.false_ne_true, hfirst]
    simp only [Bool.false_eq_true, and_false, if_false]
    split
    · rfl
    · cases a.profile? id with
      | none => rfl
      | some p => simp [Profile.mapRelations]
  | true =>
    rw [if_pos rfl, hsecond, hfirst]
    cases a.profile? id with
    | none => simp
    | some p => by_cases hchild : child.slot = id.slot <;>
        by_cases hparent : edge.target.slot = id.slot <;>
        simp [hchild, hparent, Profile.mapRelations, Function.comp_def]

/-! ## Instances -/

/-- An entity is added, and made an instance of a template that lists it. What is done to it in
between is no matter. -/
theorem profile?_listing {name : String} {kind : EntityKind} {location : Location}
    (h : Agrees Entity.profile (a.allocate name kind location).1 b)
    (hkind : kind.isNamespaceLike = false) {generic : EntityId}
    (hgeneric : generic.slot < a.entities.size) {table : Cache} {key : String}
    {list : ClassBody → ClassBody}
    (hlist : ∀ c, (list c).relations = c.relations.listing table key (.ofSlot a.entities.size))
    (id : EntityId) :
    ((b.modifyClass (.ofSlot a.entities.size) fun c =>
      { c with templateMaster := some generic }).modifyClass generic list).profile? id =
      if id.slot = a.entities.size then
        some { name, kind, protection := .pub, relations? := some (.ofInstance generic) }
      else
        (a.profile? id).map fun p =>
          if generic.slot = id.slot then
            p.mapRelations (·.listing table key (.ofSlot a.entities.size))
          else p := by
  rw [profile?_modifyClass _ _ _ (g := (·.listing table key (.ofSlot a.entities.size))) hlist,
    profile?_modifyClass b _ _ (g := fun r => { r with templateMaster := some generic })
      (by intro c; rfl), h.profile?_eq, profile?_allocate, EntityId.slot_ofSlot, hkind]
  by_cases hid : id.slot = a.entities.size
  · have hne : generic.slot ≠ id.slot := by omega
    rw [if_neg hne, if_pos hid.symm, if_pos hid, if_pos hid]
    rfl
  · rw [if_neg (Ne.symm hid), if_neg hid]
    split
    · rfl
    · exact Option.map_id'.symm

end Atlas

end SymbolAtlas
