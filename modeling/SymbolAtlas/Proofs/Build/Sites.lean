import SymbolAtlas.Proofs.Build.Linking
import SymbolAtlas.Proofs.Build.Settling

/-!
# What a build leaves alone

The declarations of an entity decide its kind, location and protection, and its name decides its place
among the scopes. When the bases come to be looked up, all that is settled: entities that are added
later are inside no other list of scopes, and whatever else a build does is a matter of members,
relations between classes, and flags.
-/

set_option autoImplicit false

namespace SymbolAtlas

/-- What the declarations of an entity decide. -/
structure Heading where
  name : String
  kind : EntityKind
  location : Location
  protection : Protection

/-- The place of an entity among the scopes. -/
structure Seat where
  outer : Option EntityId
  innerClasses : List EntityId
  innerNamespaces : List EntityId

namespace Entity

def heading (e : Entity) : Heading where
  name := e.name
  kind := e.kind
  location := e.location
  protection := e.protection

def seat (e : Entity) : Seat where
  outer := e.outer
  innerClasses := e.innerClasses
  innerNamespaces := e.innerNamespaces

/-- Heading and seat. -/
def site (e : Entity) : Heading × Seat :=
  (e.heading, e.seat)

@[simp] theorem site_modifyClass (e : Entity) (f : ClassBody → ClassBody) :
    (e.modifyClass f).site = e.site := by
  unfold modifyClass
  split <;> rfl

@[simp] theorem site_modifyNamespace (e : Entity) (f : NamespaceBody → NamespaceBody) :
    (e.modifyNamespace f).site = e.site := by
  unfold modifyNamespace
  split <;> rfl

theorem site_skeleton (e : Entity) : e.skeleton.site = e.site :=
  rfl

end Entity

namespace Atlas

variable {a b c : Atlas} {name : String} {id : EntityId}

/-! ## Registering -/

theorem register_of_some {id : EntityId} (hname : a.find? name = some id) (kind : EntityKind)
    (location : Location) : a.register name kind location = (a, id) := by
  unfold register
  rw [hname]

theorem entity?_register_of_none (hname : a.find? name = none) (kind : EntityKind)
    (location : Location) (id : EntityId) : (a.register name kind location).1.entity? id =
      if id.slot = a.entities.size then
        some (Entity.declare (.ofSlot a.entities.size) name kind location
          a.options.inlineSimpleStruct a.options.allowSubGrouping)
      else a.entity? id := by
  rw [← entity?_allocate]
  unfold register
  rw [hname]
  rfl

theorem register_snd_of_none {name : String} (hname : a.find? name = none) (kind : EntityKind)
    (location : Location) : (a.register name kind location).2 = .ofSlot a.entities.size := by
  unfold register
  rw [hname]
  rfl

/-! ## Sites -/

/-- The entities of `a` are what they were and found as they were; nothing is inside the entities that
are new in `b`. -/
structure KeepsSites (a b : Atlas) : Prop where
  size : a.entities.size ≤ b.entities.size
  names : ∀ name id, a.find? name = some id → b.find? name = some id
  sites : ∀ id, id.slot < a.entities.size →
    (b.entity? id).map (·.site) = (a.entity? id).map (·.site)
  leaves : ∀ id e, a.entities.size ≤ id.slot → b.entity? id = some e →
    e.innerClasses = [] ∧ e.innerNamespaces = []

namespace KeepsSites

theorem of_agrees (h : Agrees Entity.site a b) : a.KeepsSites b where
  size := Nat.le_of_eq h.size.symm
  names name id hname := by rw [h.find?_eq, hname]
  sites id _ := h.entity?_eq id
  leaves id e hid he := by
    have hlt := slot_lt_of_entity? he
    rw [h.size] at hlt
    omega

theorem refl (a : Atlas) : a.KeepsSites a :=
  .of_agrees (.refl _ a)

theorem exists_entity (h : a.KeepsSites b) {e : Entity} (he : a.entity? id = some e) :
    ∃ e', b.entity? id = some e' ∧ e'.site = e.site := by
  have hsite := h.sites id (slot_lt_of_entity? he)
  rw [he] at hsite
  exact Option.map_eq_some_iff.mp hsite

theorem trans (h : a.KeepsSites b) (h' : b.KeepsSites c) : a.KeepsSites c where
  size := Nat.le_trans h.size h'.size
  names name id hname := h'.names name id (h.names name id hname)
  sites id hid := (h'.sites id (Nat.lt_of_lt_of_le hid h.size)).trans (h.sites id hid)
  leaves id e hid he := by
    by_cases hold : id.slot < b.entities.size
    · obtain ⟨e', he'⟩ : ∃ e', b.entity? id = some e' := ⟨_, Array.getElem?_eq_getElem hold⟩
      obtain ⟨e'', he'', hsite⟩ := h'.exists_entity he'
      obtain rfl := Option.some.inj (he.symm.trans he'')
      have hleaf := h.leaves id e' hid he'
      have hseat : e.seat = e'.seat := congrArg Prod.snd hsite
      exact ⟨(congrArg Seat.innerClasses hseat).trans hleaf.1,
        (congrArg Seat.innerNamespaces hseat).trans hleaf.2⟩
    · exact h'.leaves id e (Nat.not_lt.mp hold) he

theorem allocate (a : Atlas) (name : String) (kind : EntityKind) (location : Location) :
    a.KeepsSites (a.allocate name kind location).1 where
  size := by
    rw [size_allocate]
    omega
  names _ _ hname := hname
  sites id hid := by rw [entity?_allocate, if_neg (by omega)]
  leaves id e hid he := by
    rw [entity?_allocate] at he
    split at he
    · cases he
      exact ⟨rfl, rfl⟩
    · have hlt := slot_lt_of_entity? he
      omega

theorem withNames (h : a.KeepsSites b) {names : Dict EntityId}
    (hnames : ∀ name id, a.find? name = some id → names.get? name = some id) :
    a.KeepsSites { b with names } where
  size := h.size
  names := hnames
  sites := h.sites
  leaves := h.leaves

theorem register (a : Atlas) (name : String) (kind : EntityKind) (location : Location) :
    a.KeepsSites (a.register name kind location).1 := by
  unfold Atlas.register
  split
  · exact .refl a
  · next hfree =>
    exact (allocate a name kind location).withNames fun _ _ => Dict.get?_insert_of_free hfree _

theorem modifyClass (a : Atlas) (id : EntityId) (f : ClassBody → ClassBody) :
    a.KeepsSites (a.modifyClass id f) :=
  .of_agrees (.modifyEntity a id fun e => e.site_modifyClass f)

theorem modifyNew (h : a.KeepsSites b) (hid : a.entities.size ≤ id.slot) {f : Entity → Entity}
    (hf : ∀ e, (f e).innerClasses = e.innerClasses ∧ (f e).innerNamespaces = e.innerNamespaces) :
    a.KeepsSites (b.modifyEntity id f) where
  size := by
    rw [size_modifyEntity]
    exact h.size
  names := h.names
  sites id' hid' := by
    rw [entity?_modifyEntity, if_neg (by omega)]
    exact h.sites id' hid'
  leaves id' e hid' he := by
    rw [entity?_modifyEntity] at he
    split at he
    · obtain ⟨e', he', rfl⟩ := Option.map_eq_some_iff.mp he
      have hleaf := h.leaves id' e' hid' he'
      exact ⟨(hf e').1.trans hleaf.1, (hf e').2.trans hleaf.2⟩
    · exact h.leaves id' e hid' he

theorem linkBase (a : Atlas) (child : EntityId) (edge : BaseEdge) :
    a.KeepsSites (a.linkBase child edge).value :=
  linkBase_kept (P := a.KeepsSites) (fun b id f _ hb => hb.trans (modifyClass b id f)) child edge
    (.refl a)

theorem addInstance (a : Atlas) (generic : EntityId) (master : Entity) (key : String) :
    a.KeepsSites (a.addInstance generic master key).value.1 := by
  refine KeepsSites.trans ?_ (.of_agrees ((SharesSkeleton.copyMembers _ _ _ _).view
    Entity.site_skeleton))
  refine KeepsSites.trans (KeepsSites.trans ?_ (modifyClass _ _ _)) (modifyClass _ generic _)
  apply modifyNew (allocate a _ _ _) (Nat.le_refl _)
  intro e
  exact ⟨rfl, rfl⟩

theorem instantiate {template : EntityId} {spec : String} {made : Noted (Atlas × EntityId × Bool)}
    (h : a.instantiate template spec = .ok made) : a.KeepsSites made.value.1 :=
  ((InstancesKeep.of_always (P := fun b => a.KeepsSites b)
    (fun b generic master key _ hb => hb.trans (addInstance b generic master key))
    fun b child edge hb => hb.trans (linkBase b child edge)).instantiate (.refl a) trivial h).1.holds

theorem mergeCategory {id category : EntityId} {merged : Noted Atlas}
    (h : a.mergeCategory id category = .ok merged) : a.KeepsSites merged.value :=
  mergeCategory_kept (P := a.KeepsSites) (fun b id f _ hb => hb.trans (modifyClass b id f))
    (fun b id hb => hb.trans (.of_agrees (.modifyEntity b id fun _ => rfl)))
    (fun hshares hb => hb.trans (.of_agrees (hshares.view Entity.site_skeleton))) h (.refl a)

end KeepsSites

end Atlas

namespace Build

open Atlas

/-! ## Registering -/

theorem site_describe (decl : EntityDecl) (p : Protection) (e : Entity) :
    (describe decl p e).site = { e with protection := p }.site := by
  exact Entity.site_modifyNamespace _ _

theorem agrees_site_declareFormals (a : Atlas) (id : EntityId) (decl : EntityDecl) :
    Agrees Entity.site a (declareFormals a id decl).value := by
  refine declareFormals_kept (fun hset => ?_) (.refl _ a)
  obtain ⟨c, -, hset⟩ := Except.bind_eq_ok hset
  cases hset
  exact .modifyEntity a id fun e => e.site_modifyClass _

/-- Of the site of an entity a declaration decides nothing but the protection, once the entity is
registered. -/
theorem agrees_site_registerAs (a : Atlas) (decl : EntityDecl) (kind : EntityKind) (p : Protection) :
    let registered := a.register decl.name kind decl.location
    Agrees Entity.site (registered.1.modifyEntity registered.2 fun e => { e with protection := p })
      (registerAs a decl kind p).value.1 := by
  intro registered
  have hdescribed : Agrees Entity.site
      (registered.1.modifyEntity registered.2 fun e => { e with protection := p })
      (registered.1.modifyEntity registered.2 (describe decl p)) :=
    ⟨rfl, map_modifyEntity_congr registered.1 registered.2 fun e => site_describe decl p e⟩
  refine (hdescribed.trans ?_).trans (agrees_site_declareFormals _ registered.2 decl)
  exact .modifyEntity _ registered.2 fun e => e.site_modifyClass _

/-! ## The phases of a build -/

theorem keepsSites_addScope (progress : Progress) (scope : String) :
    progress.atlas.KeepsSites (addScope progress scope).atlas :=
  (KeepsSites.register progress.atlas scope .namespaceKind {}).trans
    (.of_agrees (.modifyEntity _ _ fun _ => rfl))

theorem keepsSites_addScopes (progress : Progress) :
    progress.atlas.KeepsSites (addScopes progress).atlas :=
  addScopes_kept (P := fun p => progress.atlas.KeepsSites p.atlas)
    (fun p scope hp => hp.trans (keepsSites_addScope p scope)) (.refl _)

theorem agrees_linkScopes {β : Type} {view : Entity → β}
    (hview : ∀ e outer innerClasses innerNamespaces,
      view { e with outer, innerClasses, innerNamespaces } = view e)
    (progress : Progress) : Agrees view progress.atlas (linkScopes progress).atlas :=
  .foldl (fun a (pair : EntityId × EntityId) => agrees_setOuter hview a pair.1 pair.2) _ _

theorem keepsSites_addPlaceholder (a : Atlas) (name : String) :
    a.KeepsSites (addPlaceholder a name).1 := by
  obtain ⟨name', names', hnames, heq⟩ := addPlaceholder_eq a name
  have hslot : a.entities.size ≤ (EntityId.ofSlot a.entities.size).slot := Nat.le_refl _
  have hadded := (KeepsSites.allocate a name' .classKind {}).modifyNew hslot
    (f := fun e => { e with flags.isArtificial := true, flags.isUsedOnly := true })
    fun e => ⟨rfl, rfl⟩
  rw [heq]
  apply hadded.withNames
  intro q id hq
  rcases hnames with rfl | ⟨hfree, rfl⟩
  · exact hq
  · exact Dict.get?_insert_of_free hfree _ hq

/-- After it is prepared, a build moves and renames nothing. -/
theorem keepsSites_run (options : Options) (d : Document) :
    (prepare (.empty options) d).value.1.atlas.KeepsSites (run options d).value.1 := by
  unfold run
  rw [extend, Noted.value_bind]
  refine KeepsSites.trans ?_
    (.of_agrees (agrees_finish Entity.site_modifyNamespace Entity.site_skeleton _))
  rw [assemble]
  simp only [Noted.value_bind]
  generalize (prepare (.empty options) d).value = prepared
  refine KeepsSites.trans ?_
    (.of_agrees (KeepsView.foldlM (keepsView_addUsings Entity.site_modifyNamespace) _ _).1)
  refine Noted.foldlM_kept (P := fun q : Progress => prepared.1.atlas.KeepsSites q.atlas)
    (fun q owner hq => mergeCategoryOf_kept (P := fun q => prepared.1.atlas.KeepsSites q.atlas)
      (fun _ _ hmerged => hq.trans (.mergeCategory hmerged)) hq) _ ?_
  exact (LinksKeep.of_always (P := fun q => prepared.1.atlas.KeepsSites q.atlas)
    (fun q name hq => hq.trans (keepsSites_addPlaceholder q.atlas name))
    fun q child edge hq => hq.trans (.linkBase q.atlas child edge)).addBases_of_always
    (fun _ _ _ _ hmade hq => hq.trans (.instantiate hmade)) (.refl _) _

end Build

end SymbolAtlas
