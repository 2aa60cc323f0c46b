import SymbolAtlas.Proofs.Atlas.Instances
import SymbolAtlas.Proofs.Atlas.Operations

/-!
# Templates and their instances

Instances are made of templates that are no instances themselves, and each is listed by its template
once, under a key in canonical spacing. That holds whatever is done to an atlas, and so a template
finds an instance again for as long as the atlas is worked on, and never takes one for another.
-/

set_option autoImplicit false

namespace SymbolAtlas.Atlas

variable {g id' : EntityId} {key' : String}

variable {a b c : Atlas} {isStrict : Bool}
variable {id generic template : EntityId} {f : Family} {key : String}

/-- The family of the class with a number. -/
def family? (a : Atlas) (id : EntityId) : Option Family :=
  (a.relations? id).map (·.toFamily)

/-- Templates are no instances. Instances have none themselves, are not registered, and are listed
once, by their template. -/
structure IsForest (a : Atlas) : Prop where
  master : ∀ id f g, a.family? id = some f → f.templateMaster = some g →
    ∃ f', a.family? g = some f' ∧ f'.templateMaster = none
  childless : ∀ id f g, a.family? id = some f → f.templateMaster = some g →
    ∀ table, f.cache table = .empty
  unnamed : ∀ id f g, 0 < id.number → a.family? id = some f → f.templateMaster = some g →
    ∀ name, a.find? name ≠ some id
  listed : ∀ g f table key id, 0 < g.number → a.family? g = some f →
    (f.cache table).get? key = some id → ∃ f', a.family? id = some f' ∧ f'.templateMaster = some g
  normal : ∀ g f table key id, a.family? g = some f → (f.cache table).get? key = some id →
    Text.normalized key = key
  once : ∀ g f table table' key key' id, a.family? g = some f →
    (f.cache table).get? key = some id → (f.cache table').get? key' = some id →
    table = table' ∧ key = key'
  covered : ∀ id f g, 0 < id.number → a.family? id = some f → f.templateMaster = some g →
    ∃ f' table key, a.family? g = some f' ∧ (f'.cache table).get? key = some id

/-! ## Families -/

theorem family?_eq_profile? (a : Atlas) (id : EntityId) :
    a.family? id = (a.profile? id).bind fun p => p.relations?.map (·.toFamily) := by
  rw [family?, relations?_eq_profile?, Option.map_bind]
  rfl

theorem family?_of_class? {c : ClassBody} (h : a.class? id = some c) :
    a.family? id = some c.relations.toFamily := by
  rw [family?, relations?, h]
  rfl

theorem exists_class_of_family? (h : a.family? id = some f) :
    ∃ c, a.class? id = some c ∧ c.relations.toFamily = f := by
  obtain ⟨r, hr, rfl⟩ := Option.map_eq_some_iff.mp h
  obtain ⟨c, hc, rfl⟩ := Option.map_eq_some_iff.mp hr
  exact ⟨c, hc, rfl⟩

theorem slot_lt_of_family? (h : a.family? id = some f) : id.slot < a.entities.size := by
  obtain ⟨r, hr, -⟩ := Option.map_eq_some_iff.mp h
  exact slot_lt_of_relations? hr

theorem family?_eq_of_slot (a : Atlas) (h : id.slot = id'.slot) : a.family? id = a.family? id' := by
  rw [family?, family?, a.relations?_eq_of_slot h]

theorem genericOf_eq_family? (a : Atlas) (id : EntityId) :
    a.genericOf id = ((a.family? id).bind (·.templateMaster)).getD id := by
  rw [genericOf_eq_relations?, family?, Option.bind_map]
  rfl

theorem Changes.family_grows (h : Changes isStrict a b) (hf : a.family? id = some f) :
    ∃ f', b.family? id = some f' ∧ f.Grows f' := by
  obtain ⟨r, hr, rfl⟩ := Option.map_eq_some_iff.mp hf
  obtain ⟨r', hr', hgrows⟩ := h.grows hr
  exact ⟨r'.toFamily, by rw [family?, hr']; rfl, hgrows⟩

theorem HoldsClass.exists_family (h : a.HoldsClass id) : ∃ f, a.family? id = some f := by
  obtain ⟨-, r, hr⟩ := holdsClass_iff.mp h
  exact ⟨r.toFamily, by rw [family?, hr]; rfl⟩

theorem IsWired.holdsClass_of_listed (ha : a.IsWired) {table : Cache} (hf : a.family? g = some f)
    (hget : (f.cache table).get? key = some id) : a.HoldsClass id := by
  obtain ⟨r, hr, rfl⟩ := Option.map_eq_some_iff.mp hf
  exact (ha.relations g r hr).cache table key id hget

theorem IsForest.family_genericOf (h : a.IsForest) (hid : a.HoldsClass id) :
    ∃ f, a.family? (a.genericOf id) = some f ∧ f.templateMaster = none := by
  obtain ⟨f, hf⟩ := hid.exists_family
  rw [genericOf_eq_family?, hf, Option.bind_some]
  cases hmaster : f.templateMaster with
  | none => exact ⟨f, hf, hmaster⟩
  | some g => exact h.master id f g hf hmaster

/-! ## What changes do to families -/

theorem Modifies.family?_eq {g : EntityId → Profile → Profile} (h : a.Modifies b g)
    (hg : ∀ id p, (g id p).relations?.map (·.toFamily) = p.relations?.map (·.toFamily))
    (id : EntityId) : b.family? id = a.family? id := by
  rw [family?_eq_profile?, family?_eq_profile?, h.profile, Option.bind_map]
  congr 1
  funext p
  exact hg id p

theorem map_toFamily_mapRelations (p : Profile) {g : Relations → Relations}
    (hg : ∀ r, (g r).toFamily = r.toFamily) :
    (p.mapRelations g).relations?.map (·.toFamily) = p.relations?.map (·.toFamily) := by
  unfold Profile.mapRelations
  rw [Option.map_map]
  congr 1
  funext r
  exact hg r

theorem IsForest.declare (h : a.IsForest)
    (hnames : ∀ name id, b.find? name = some id →
      a.find? name = some id ∨ id = .ofSlot a.entities.size)
    (hkept : ∀ id f, a.family? id = some f → b.family? id = some f)
    (hfamily : ∀ id f, b.family? id = some f → a.family? id = some f ∨ f = .alone) : b.IsForest := by
  have hinstance {id g : EntityId} {f : Family} (hf : b.family? id = some f)
      (hmaster : f.templateMaster = some g) : a.family? id = some f := by
    rcases hfamily id f hf with hf | rfl
    · exact hf
    · cases hmaster
  have htemplate {g id : EntityId} {f : Family} {table : Cache} {key : String}
      (hf : b.family? g = some f) (hget : (f.cache table).get? key = some id) :
      a.family? g = some f := by
    rcases hfamily g f hf with hf | rfl
    · exact hf
    · cases hget
  constructor
  case master =>
    intro id f g hf hmaster
    obtain ⟨f', hf', hnone⟩ := h.master id f g (hinstance hf hmaster) hmaster
    exact ⟨f', hkept g f' hf', hnone⟩
  case childless =>
    intro id f g hf hmaster
    exact h.childless id f g (hinstance hf hmaster) hmaster
  case unnamed =>
    intro id f g hpos hf hmaster name hfind
    have hold := hinstance hf hmaster
    rcases hnames name id hfind with hfind | rfl
    · exact h.unnamed id f g hpos hold hmaster name hfind
    · exact absurd (slot_lt_of_family? hold) (Nat.lt_irrefl _)
  case listed =>
    intro g f table key id hpos hf hget
    obtain ⟨f', hf', hmaster⟩ := h.listed g f table key id hpos (htemplate hf hget) hget
    exact ⟨f', hkept id f' hf', hmaster⟩
  case normal =>
    intro g f table key id hf hget
    exact h.normal g f table key id (htemplate hf hget) hget
  case once =>
    intro g f table table' key key' id hf hget hget'
    exact h.once g f table table' key key' id (htemplate hf hget) hget hget'
  case covered =>
    intro id f g hpos hf hmaster
    obtain ⟨f', table, key, hf', hget⟩ := h.covered id f g hpos (hinstance hf hmaster) hmaster
    exact ⟨f', table, key, hkept g f' hf', hget⟩

theorem IsForest.of_eq (h : a.IsForest) (hnames : b.names = a.names)
    (hfamily : ∀ id, b.family? id = a.family? id) : b.IsForest := by
  refine h.declare (fun name id hfind => ?_) (fun id f hf => (hfamily id).trans hf)
    fun id f hf => .inl ((hfamily id).symm.trans hf)
  rw [find?, hnames] at hfind
  exact .inl hfind

/-- What the families are after a template has got an instance. -/
structure Spawned (a b : Atlas) (generic : EntityId) (table : Cache) (key : String) : Prop where
  names : b.names = a.names
  new : b.family? (.ofSlot a.entities.size) = some (.ofInstance generic)
  family : ∀ id, id.slot ≠ a.entities.size → b.family? id =
    if generic.slot = id.slot then (a.family? id).map (·.listing table key (.ofSlot a.entities.size))
    else a.family? id

theorem Spawned.cases {table : Cache} (h : a.Spawned b generic table key)
    (hf : b.family? id = some f) :
    (id.slot = a.entities.size ∧ f = .ofInstance generic) ∨
    (generic.slot = id.slot ∧ ∃ f', a.family? id = some f' ∧
      f = f'.listing table key (.ofSlot a.entities.size)) ∨
    (generic.slot ≠ id.slot ∧ a.family? id = some f) := by
  by_cases hid : id.slot = a.entities.size
  · have hslot : id.slot = (EntityId.ofSlot a.entities.size).slot := hid
    rw [b.family?_eq_of_slot hslot, h.new] at hf
    exact .inl ⟨hid, (Option.some.inj hf).symm⟩
  · rw [h.family id hid] at hf
    split at hf
    · next hslot =>
      obtain ⟨f', hf', rfl⟩ := Option.map_eq_some_iff.mp hf
      exact .inr (.inl ⟨hslot, f', hf', rfl⟩)
    · next hslot => exact .inr (.inr ⟨hslot, hf⟩)

namespace Spawned

variable {generic : EntityId} {table : Cache} {key : String} {f₀ : Family}

variable (h : a.Spawned b generic table key)

include h

theorem of_instance (hf₀ : a.family? generic = some f₀) (hmaster₀ : f₀.templateMaster = none)
    {id : EntityId} {f : Family} (hf : b.family? id = some f)
    (hmaster : f.templateMaster = some g) :
    (id.slot = a.entities.size ∧ f = .ofInstance generic) ∨ a.family? id = some f := by
  rcases h.cases hf with hnew | ⟨hslot, f', hf', rfl⟩ | ⟨-, hf⟩
  · exact .inl hnew
  -- The template is no instance, and getting one does not make it so.
  · rw [← a.family?_eq_of_slot hslot, hf₀] at hf'
    cases hf'
    rw [Family.listing, hmaster₀] at hmaster
    cases hmaster
  · exact .inr hf

theorem of_listed {id : EntityId} {f : Family} {table' : Cache} (hf : b.family? g = some f)
    (hget : (f.cache table').get? key' = some id) :
    (generic.slot = g.slot ∧ table' = table ∧ key' = key ∧ id = .ofSlot a.entities.size) ∨
    ∃ f', a.family? g = some f' ∧ (f'.cache table').get? key' = some id := by
  rcases h.cases hf with ⟨-, rfl⟩ | ⟨hslot, f', hf', rfl⟩ | ⟨-, hf⟩
  · cases hget
  · rw [Family.get?_listing] at hget
    split at hget
    · next heq => exact .inl ⟨hslot, heq.1, heq.2, (Option.some.inj hget).symm⟩
    · exact .inr ⟨f', hf', hget⟩
  · exact .inr ⟨f, hf, hget⟩

theorem lists (hf₀ : a.family? generic = some f₀) :
    b.family? generic = some (f₀.listing table key (.ofSlot a.entities.size)) := by
  rw [h.family generic (Nat.ne_of_lt (slot_lt_of_family? hf₀)), if_pos rfl, hf₀, Option.map_some]

end Spawned

/-- Adding an instance of a template keeps templates and instances in step. -/
theorem IsForest.spawn (h : a.IsForest) (ha : a.IsWired) {table : Cache} (hpos : 0 < generic.number)
    {f₀ : Family} (hf₀ : a.family? generic = some f₀) (hmaster₀ : f₀.templateMaster = none)
    (hkey : Text.normalized key = key)
    (hgrows : ∀ {id f}, a.family? id = some f → ∃ f', b.family? id = some f' ∧ f.Grows f')
    (hspawned : a.Spawned b generic table key) : b.IsForest := by
  have hfind (name : String) : b.find? name = a.find? name := by rw [find?, hspawned.names, find?]
  have hfresh {id : EntityId} (hid : a.HoldsClass id) : id ≠ .ofSlot a.entities.size := by
    rintro rfl
    exact absurd hid.holds.slot_lt (Nat.lt_irrefl _)
  constructor
  case master =>
    intro id f g hf hmaster
    rcases hspawned.of_instance hf₀ hmaster₀ hf hmaster with ⟨-, rfl⟩ | hf
    · cases hmaster
      exact ⟨_, hspawned.lists hf₀, hmaster₀⟩
    · obtain ⟨f', hf', hnone⟩ := h.master id f g hf hmaster
      obtain ⟨f'', hf'', hgrown⟩ := hgrows hf'
      exact ⟨f'', hf'', hgrown.templateMaster.trans hnone⟩
  case childless =>
    intro id f g hf hmaster
    rcases hspawned.of_instance hf₀ hmaster₀ hf hmaster with ⟨-, rfl⟩ | hf
    · exact fun table => rfl
    · exact h.childless id f g hf hmaster
  case unnamed =>
    intro id f g hid hf hmaster name hname
    rw [hfind] at hname
    rcases hspawned.of_instance hf₀ hmaster₀ hf hmaster with ⟨hslot, -⟩ | hf
    · exact absurd (ha.names name id hname).slot_lt (hslot ▸ Nat.lt_irrefl _)
    · exact h.unnamed id f g hid hf hmaster name hname
  case listed =>
    intro g f table' key' id hg hf hget
    rcases hspawned.of_listed hf hget with ⟨hslot, -, -, rfl⟩ | ⟨f', hf', hget⟩
    · refine ⟨_, hspawned.new, ?_⟩
      rw [EntityId.eq_of_slot hpos hg hslot]
      rfl
    · obtain ⟨f'', hf'', hmaster⟩ := h.listed g f' table' key' id hg hf' hget
      obtain ⟨f₃, hf₃, hgrown⟩ := hgrows hf''
      exact ⟨f₃, hf₃, hgrown.templateMaster.trans hmaster⟩
  case normal =>
    intro g f table' key' id hf hget
    rcases hspawned.of_listed hf hget with ⟨-, -, rfl, -⟩ | ⟨f', hf', hget⟩
    · exact hkey
    · exact h.normal g f' table' key' id hf' hget
  case once =>
    intro g f table₁ table₂ key₁ key₂ id hf hget₁ hget₂
    rcases hspawned.of_listed hf hget₁ with ⟨-, rfl, rfl, hnew₁⟩ | ⟨f₁, hf₁, hget₁⟩
    · rcases hspawned.of_listed hf hget₂ with ⟨-, rfl, rfl, -⟩ | ⟨f₂, hf₂, hget₂⟩
      · exact ⟨rfl, rfl⟩
      · exact absurd hnew₁ (hfresh (ha.holdsClass_of_listed hf₂ hget₂))
    · rcases hspawned.of_listed hf hget₂ with ⟨-, -, -, hnew₂⟩ | ⟨f₂, hf₂, hget₂⟩
      · exact absurd hnew₂ (hfresh (ha.holdsClass_of_listed hf₁ hget₁))
      · obtain rfl := Option.some.inj (hf₁.symm.trans hf₂)
        exact h.once g f₁ table₁ table₂ key₁ key₂ id hf₁ hget₁ hget₂
  case covered =>
    intro id f g hid hf hmaster
    rcases hspawned.of_instance hf₀ hmaster₀ hf hmaster with ⟨hslot, rfl⟩ | hf
    · cases hmaster
      refine ⟨_, table, key, hspawned.lists hf₀, ?_⟩
      have hnew : id = .ofSlot a.entities.size := EntityId.eq_of_slot hid (Nat.succ_pos _) hslot
      rw [Family.get?_listing, if_pos ⟨rfl, rfl⟩, hnew]
    · obtain ⟨f', table', key', hf', hget⟩ := h.covered id f g hid hf hmaster
      obtain ⟨f'', hf'', hgrown⟩ := hgrows hf'
      exact ⟨f'', table', key', hf'', hgrown.cache table' key' id hget⟩

theorem IsForest.empty (options : Options) : (Atlas.empty options).IsForest := by
  have hnone (id : EntityId) : (Atlas.empty options).family? id = none := by
    simp [family?, relations?, class?, entity?, Atlas.empty]
  constructor <;> simp [hnone]

/-- So does every other change. -/
theorem Change.isForest (h : Change isStrict a b) (hforest : a.IsForest) (ha : a.IsWired) :
    b.IsForest := by
  have hgrows {id : EntityId} {f : Family} (hf : a.family? id = some f) :
      ∃ f', b.family? id = some f' ∧ f.Grows f' := Changes.family_grows (.single h) hf
  cases h with
  | keep h => exact hforest.of_eq h.names (h.family?_eq fun id p => rfl)
  | protect id q _ h =>
    refine hforest.of_eq h.names (h.family?_eq fun id' p => ?_)
    split <;> rfl
  | link _ _ _ _ _ h | extend _ _ _ _ h | donate _ _ _ _ _ _ h =>
    exact hforest.of_eq h.names
      (h.family?_eq fun id p => map_toFamily_mapRelations p fun r => rfl)
  | declare name kind hnames h =>
    have hold {id : EntityId} (hid : id.slot ≠ a.entities.size) : b.family? id = a.family? id := by
      rw [family?_eq_profile?, family?_eq_profile?, h.profile, if_neg hid, Option.map_id']
    refine hforest.declare (fun name' id hfind => ?_) (fun id f hf => ?_) fun id f hf => ?_
    · rcases hnames with hnames | ⟨-, hnames⟩
      · exact .inl (by rwa [find?, hnames] at hfind)
      · rw [find?, hnames, Dict.get?_insert] at hfind
        split at hfind
        · exact .inr (Option.some.inj hfind).symm
        · exact .inl hfind
    · rw [hold (Nat.ne_of_lt (slot_lt_of_family? hf))]
      exact hf
    · by_cases hid : id.slot = a.entities.size
      · rw [family?_eq_profile?, h.profile, if_pos hid] at hf
        cases hkind : kind.isNamespaceLike with
        | true => simp [hkind] at hf
        | false => exact .inr (by simpa [hkind, Relations.empty] using hf.symm)
      · exact .inl ((hold hid).symm.trans hf)
  | spawn table template key name kind htemplate _ hkey _ hnames h =>
    have hgeneric := ha.holdsClass_genericOf htemplate
    obtain ⟨f₀, hf₀, hmaster₀⟩ := hforest.family_genericOf htemplate
    have hspawned : a.Spawned b (a.genericOf template) table key := by
      refine ⟨hnames, ?_, fun id hid => ?_⟩
      · rw [family?_eq_profile?, h.profile, EntityId.slot_ofSlot, if_pos rfl]
        rfl
      · rw [family?_eq_profile?, family?_eq_profile?, h.profile, if_neg hid]
        cases a.profile? id with
        | none => simp
        | some p =>
          rw [Option.map_some, Option.bind_some, Option.bind_some]
          split
          · unfold Profile.mapRelations Relations.listing
            rw [Option.map_map, Option.map_map]
            rfl
          · rfl
    exact hforest.spawn ha hgeneric.1 hf₀ hmaster₀ hkey hgrows hspawned

theorem Changes.isForest (h : Changes isStrict a b) (hforest : a.IsForest) (ha : a.IsWired) :
    b.IsForest := by
  induction h with
  | refl => exact hforest
  | tail hbefore hstep ih => exact hstep.isForest ih (Changes.isWired hbefore ha)

/-! ## Finding an instance again -/

theorem IsInstance.unique (h : a.IsInstance generic key id) (h' : a.IsInstance generic key id') :
    id = id' := by
  obtain ⟨c, hc, hget⟩ := h
  obtain ⟨c', hc', hget'⟩ := h'
  obtain rfl := Option.some.inj (hc.symm.trans hc')
  exact Option.some.inj (hget.symm.trans hget')

theorem Changes.isInstance (h : Changes isStrict a b) (hinstance : a.IsInstance generic key id) :
    b.IsInstance generic key id := by
  obtain ⟨c, hc, hget⟩ := hinstance
  obtain ⟨f, hf, hgrows⟩ := h.family_grows (family?_of_class? hc)
  obtain ⟨c', hc', rfl⟩ := exists_class_of_family? hf
  exact ⟨c', hc', hgrows.cache .instances key id hget⟩

theorem IsForest.genericOf_genericOf (h : a.IsForest) (hid : a.HoldsClass id) :
    a.genericOf (a.genericOf id) = a.genericOf id := by
  obtain ⟨f, hf, hmaster⟩ := h.family_genericOf hid
  rw [genericOf_eq_family? a (a.genericOf id), hf, Option.bind_some, hmaster, Option.getD_none]

theorem exists_finish (isStrict : Bool) (levels : Nat) :
    ∃ finish, instanceWithin levels = instanceWith finish ∧
      ∀ (b : Atlas) id generic key, b.IsWired → b.HoldsClass id →
        Changes isStrict b (finish b id generic key).value := by
  cases levels with
  | zero => exact ⟨_, rfl, fun b id generic key _ _ => .refl⟩
  | succ levels =>
    refine ⟨_, rfl, fun b id generic key hb hid => ?_⟩
    exact ((instancesKeep_changes isStrict hb).instantiateBases
      (fun spec hc ht => (instancesKeep_changes isStrict hb).instanceWithin levels hc ht spec) .refl hid
      trivial generic key).holds

/-- An instance that is asked for was there, or is the newest entity. -/
theorem instanceWithin_cases (h : a.IsForest) (ha : a.IsWired) (ht : a.HoldsClass template)
    (levels : Nat) (spec : String) :
    (∃ id, a.IsInstance (a.genericOf template) (Text.normalized spec) id ∧
      instanceWithin levels a template spec = pure (a, id, false)) ∨
    (∀ id, ¬ a.IsInstance (a.genericOf template) (Text.normalized spec) id) ∧
      (instanceWithin levels a template spec).value.2.1 = .ofSlot a.entities.size ∧
      (instanceWithin levels a template spec).value.1.IsInstance (a.genericOf template)
        (Text.normalized spec) (.ofSlot a.entities.size) := by
  have hgeneric := ha.holdsClass_genericOf ht
  obtain ⟨finish, hwithin, hfinish⟩ := exists_finish false levels
  obtain ⟨f, hf, hnone⟩ := h.family_genericOf ht
  obtain ⟨c, hc, rfl⟩ := exists_class_of_family? hf
  have hl : a.lineage? (a.genericOf template) = some c.lineage := by
    rw [lineage?_eq_map, hc]
    rfl
  -- An instance is asked for in the name of its template, which has no template of its own.
  have hasked : instanceWith finish a template spec =
      instanceWith finish a (a.genericOf template) spec := by
    rw [instanceWith, instanceWith, h.genericOf_genericOf ht]
  rw [hwithin, hasked]
  rcases instanceWith_cases hl hnone finish spec with
    ⟨id, hget, heq⟩ | ⟨hget, master, hmaster, heq⟩
  · exact .inl ⟨id, ⟨c, hc, hget⟩, heq⟩
  · refine .inr ⟨fun id hid => ?_, ?_, ?_⟩
    · obtain ⟨c', hc', hget'⟩ := hid
      obtain rfl := Option.some.inj (hc.symm.trans hc')
      rw [show c.instances.get? (Text.normalized spec) = none from hget] at hget'
      cases hget'
    · rw [heq]
      rfl
    · have hfree : (a.class? (a.genericOf template)).bind
          (·.instances.get? (Text.normalized spec)) = none := by
        rw [hc]
        exact hget
      have hadded : a.LeadsTo false _ _ :=
        leadsTo_addInstance ha ht hmaster (Text.normalized_normalized spec) hfree
      have hlisted := isInstance_addInstance (Text.normalized spec) hl
        (ha.isNamespaceLike_eq_false hgeneric hmaster)
      rw [heq]
      exact (hfinish _ _ (a.genericOf template) (Text.normalized spec)
        (hadded.changes.isWired ha) hadded.holdsClass).isInstance hlisted

theorem instantiate_eq (ht : a.HoldsClass template) (spec : String) :
    a.instantiate template spec =
      .ok (instanceWithin (instantiationLimit a.options) a template spec) := by
  obtain ⟨-, e, he, hclass⟩ := ht
  obtain ⟨c, hc⟩ := Option.isSome_iff_exists.mp hclass
  have hrequire : a.requireClass template = .ok c := by
    rw [requireClass, he]
    simp [hc]
  rw [instantiate, hrequire]
  rfl

theorem isInstance_instantiate (h : a.IsForest) (ha : a.IsWired) (hpos : 0 < template.number)
    {spec : String} {made : Noted (Atlas × EntityId × Bool)}
    (hmade : a.instantiate template spec = .ok made) :
    made.value.1.IsInstance (a.genericOf template) (Text.normalized spec) made.value.2.1 := by
  obtain ⟨c, hc, hmade⟩ := Except.bind_eq_ok hmade
  cases hmade
  have ht := holdsClass_of_requireClass hpos hc
  rcases instanceWithin_cases h ha ht (instantiationLimit a.options) spec with
    ⟨id, hid, heq⟩ | ⟨-, hnew, hid⟩
  · rw [heq]
    exact hid
  · rw [hnew]
    exact hid

theorem IsForest.eq_of_isInstance (h : a.IsForest) {g' : EntityId} (hg : 0 < g.number)
    (hg' : 0 < g'.number) (hid : a.IsInstance g key id) (hid' : a.IsInstance g' key' id) :
    g = g' ∧ key = key' := by
  obtain ⟨c, hc, hget⟩ := hid
  obtain ⟨c', hc', hget'⟩ := hid'
  obtain ⟨f, hf, hmaster⟩ := h.listed g _ .instances key id hg (family?_of_class? hc) hget
  obtain ⟨f', hf', hmaster'⟩ := h.listed g' _ .instances key' id hg' (family?_of_class? hc') hget'
  obtain rfl := Option.some.inj (hf.symm.trans hf')
  obtain rfl := Option.some.inj (hmaster.symm.trans hmaster')
  obtain rfl := Option.some.inj (hc.symm.trans hc')
  exact ⟨rfl, (h.once g _ .instances .instances key key' id (family?_of_class? hc) hget hget').2⟩

/-- What is asked for is an instance that is there if it has that template and key, and is none of
those that are there otherwise. -/
theorem instanceWithin_of_isInstance (h : a.IsForest) (ha : a.IsWired) {other : EntityId}
    (hpos : 0 < generic.number) (hlisted : a.IsInstance generic key id)
    (hother : a.HoldsClass other) (levels : Nat) (spec : String) :
    (a.genericOf other = generic → Text.normalized spec = key →
      instanceWithin levels a other spec = pure (a, id, false)) ∧
    (a.genericOf other ≠ generic ∨ Text.normalized spec ≠ key →
      (instanceWithin levels a other spec).value.2.1 ≠ id) := by
  rcases instanceWithin_cases h ha hother levels spec with ⟨id', hid', heq⟩ | ⟨hfree, hnew, -⟩
  · rw [heq]
    refine ⟨fun hgeneric hkey => ?_, fun hdiffer hsame => ?_⟩
    · rw [hgeneric, hkey] at hid'
      rw [hid'.unique hlisted]
    · have hsame : id' = id := hsame
      rw [hsame] at hid'
      obtain ⟨hgeneric, hkey⟩ :=
        h.eq_of_isInstance (ha.holdsClass_genericOf hother).1 hpos hid' hlisted
      exact hdiffer.elim (absurd hgeneric) (absurd hkey)
  · refine ⟨fun hgeneric hkey => ?_, fun _ hsame => ?_⟩
    · rw [hgeneric, hkey] at hfree
      exact absurd hlisted (hfree _)
    -- A new instance has a number that was not given out before.
    · obtain ⟨c, hc, hget⟩ := hlisted
      have hget : (c.relations.cache .instances).get? key = some id := hget
      have hold := (ha.holdsClass_of_listed (family?_of_class? hc) hget).holds.slot_lt
      rw [← hsame, hnew] at hold
      exact Nat.lt_irrefl _ hold

/-! ## Whatever is done -/

theorem changes_performAll_empty (options : Options) (operations : List Operation) :
    Changes false (.empty options) (Operation.performAll (.empty options) operations) :=
  Operation.changes_performAll operations (.empty options) nofun

/-- Whatever is done to an empty atlas, an instance has a template that is none, is not registered
and has no instances. What a template lists, under keys in canonical spacing, are its instances, and
each of them stands under one key of one of the two lists. -/
theorem template_families (options : Options) (operations : List Operation) :
    let a := Operation.performAll (.empty options) operations
    ∀ g c, a.HoldsClass g → a.class? g = some c →
      (∀ master, c.templateMaster = some master →
        a.HoldsClass master ∧ (a.class? master).bind (·.templateMaster) = none ∧
          (∀ name, a.find? name ≠ some g) ∧ c.instances = .empty ∧ c.variableInstances = .empty) ∧
      (∀ table key id, (c.relations.cache table).get? key = some id →
        a.HoldsClass id ∧ (a.class? id).bind (·.templateMaster) = some g ∧
          Text.normalized key = key) ∧
      (∀ table table' key key' id, (c.relations.cache table).get? key = some id →
        (c.relations.cache table').get? key' = some id → table = table' ∧ key = key') ∧
      ∀ id c', a.HoldsClass id → a.class? id = some c' → c'.templateMaster = some g →
        ∃! place : Cache × String, (c.relations.cache place.1).get? place.2 = some id := by
  intro a g c hg hc
  have hchanges : Changes false _ a := changes_performAll_empty options operations
  have ha : a.IsWired := hchanges.isWired (.empty options)
  have h : a.IsForest := hchanges.isForest (.empty options) (.empty options)
  have hf := family?_of_class? hc
  have hrelations : a.relations? g = some c.relations := by
    rw [relations?, hc]
    rfl
  refine ⟨fun master hmaster => ⟨?_, ?_, ?_, ?_, ?_⟩, fun table key id hget => ⟨?_, ?_, ?_⟩,
    fun table table' key key' id => h.once g _ table table' key key' id hf,
    fun id c' hid hc' hmaster => ?_⟩
  · exact (ha.relations g _ hrelations).templateMaster master hmaster
  · obtain ⟨f', hf', hnone⟩ := h.master g _ master hf hmaster
    obtain ⟨c', hc', rfl⟩ := exists_class_of_family? hf'
    rw [hc']
    exact hnone
  · exact h.unnamed g _ master hg.1 hf hmaster
  · exact h.childless g _ master hf hmaster .instances
  · exact h.childless g _ master hf hmaster .variables
  · exact ha.holdsClass_of_listed hf hget
  · obtain ⟨f', hf', hmaster⟩ := h.listed g _ table key id hg.1 hf hget
    obtain ⟨c', hc', rfl⟩ := exists_class_of_family? hf'
    rw [hc']
    exact hmaster
  · exact h.normal g _ table key id hf hget
  · obtain ⟨f', table, key, hf', hget⟩ := h.covered id _ g hid.1 (family?_of_class? hc') hmaster
    obtain rfl := Option.some.inj (hf.symm.trans hf')
    refine ⟨(table, key), hget, fun place hplace => ?_⟩
    obtain ⟨htable, hkey⟩ := h.once g _ place.1 table place.2 key id hf hplace hget
    exact Prod.ext htable hkey

/-- A template with a template as its base, and instances of it: one by itself, one in the place of
the template and one for a variable. -/
def crating : List Operation :=
  [.register "Crate" .classKind {}, .setFormals ⟨1⟩ ["T"], .register "Box" .classKind {},
    .setFormals ⟨2⟩ ["T"],
    .insertBase 2 1
      { target := ⟨1⟩, usedName := "Crate", templateSpec := "<T>" },
    .instantiate 2 "< int >", .instantiate 3 "<long>",
    .instantiateVariable 2 "<int>"]

/-- Both lists of the template have an instance under the key `<int>`, in different places. -/
theorem template_families_crating :
    let a := Operation.performAll (.empty {}) crating
    a.HoldsClass ⟨2⟩ ∧ ∃ c, a.class? ⟨2⟩ = some c ∧ c.templateMaster = none ∧
      c.instances.get? "<int>" = some ⟨3⟩ ∧ c.variableInstances.get? "<int>" = some ⟨7⟩ ∧
      (∃! place : Cache × String, (c.relations.cache place.1).get? place.2 = some ⟨3⟩) ∧
      ∃ c', a.class? ⟨5⟩ = some c' ∧ c'.templateMaster = some ⟨2⟩ ∧ c'.instances = .empty ∧
        ∀ name, a.find? name ≠ some ⟨5⟩ := by
  intro a
  obtain ⟨hbox, c, hc⟩ := holdsClass_and_class? a ⟨2⟩ (by decide) (by decide +kernel)
  obtain ⟨hint, cint, hcint⟩ := holdsClass_and_class? a ⟨3⟩ (by decide) (by decide +kernel)
  obtain ⟨hlong, clong, hclong⟩ := holdsClass_and_class? a ⟨5⟩ (by decide) (by decide +kernel)
  have hread : (a.class? ⟨2⟩).map (fun c => (c.templateMaster, c.instances.get? "<int>",
      c.variableInstances.get? "<int>")) = some (none, some ⟨3⟩, some ⟨7⟩) := by decide +kernel
  have hmaster (id : EntityId) (hid : (a.class? id).bind (·.templateMaster) = some ⟨2⟩)
      {c' : ClassBody} (hc' : a.class? id = some c') : c'.templateMaster = some ⟨2⟩ := by
    rwa [hc'] at hid
  rw [hc, Option.map_some, Option.some.injEq, Prod.mk.injEq, Prod.mk.injEq] at hread
  have hcovered := (template_families {} crating ⟨2⟩ c hbox hc).2.2.2 ⟨3⟩ cint hint hcint
    (hmaster ⟨3⟩ (by decide +kernel) hcint)
  have hmasterLong := hmaster ⟨5⟩ (by decide +kernel) hclong
  obtain ⟨-, -, hunnamed, hempty, -⟩ :=
    (template_families {} crating ⟨5⟩ clong hlong hclong).1 ⟨2⟩ hmasterLong
  exact ⟨hbox, c, hc, hread.1, hread.2.1, hread.2.2, hcovered, clong, hclong, hmasterLong, hempty,
    hunnamed⟩

/-- An instance that has been asked for once is found again whatever is done in between, by its
template or an instance of it, with arguments that are spaced in another way. Nothing happens then.
What is asked for with other arguments, or of another template, is another instance. -/
theorem instance_found_again (options : Options) (before after : List Operation) (template : Handle)
    (spec : String) {made : Noted (Atlas × EntityId × Bool)}
    (hmade : (Operation.performAll (.empty options) before).instantiate template.1 spec = .ok made)
    (other : EntityId) (spec' : String) :
    let a := Operation.performAll (.empty options) before
    let b := Operation.performAll made.value.1 after
    b.HoldsClass other →
    b.genericOf template.1 = a.genericOf template.1 ∧
    ∃ found, b.instantiate other spec' = .ok found ∧
      (b.genericOf other = a.genericOf template.1 → Text.normalized spec' = Text.normalized spec →
        found = pure (b, made.value.2.1, false)) ∧
      (b.genericOf other ≠ a.genericOf template.1 ∨ Text.normalized spec' ≠ Text.normalized spec →
        found.value.2.1 ≠ made.value.2.1) := by
  intro a b hother
  have hbefore : Changes false _ a := changes_performAll_empty options before
  have ha : a.IsWired := hbefore.isWired (.empty options)
  have hforest : a.IsForest := hbefore.isForest (.empty options) (.empty options)
  have hmaking : a.LeadsTo false _ _ := changes_instantiate ha template.2 hmade
  have ht := holdsClass_of_instantiate template.2 hmade
  have hafter : Changes false _ b :=
    Operation.changes_performAll after (hmaking.changes.isWired ha) nofun
  have hwhole : Changes false a b := hmaking.changes.trans hafter
  have hlisted : b.IsInstance (a.genericOf template.1) (Text.normalized spec) made.value.2.1 :=
    hafter.isInstance (isInstance_instantiate hforest ha template.2 hmade)
  exact ⟨hwhole.genericOf_eq ht, _, instantiate_eq hother spec',
    instanceWithin_of_isInstance (hwhole.isForest hforest ha) (hwhole.isWired ha)
      (ha.holdsClass_genericOf ht).1 hlisted hother _ spec'⟩

/-- An instance that was made in the place of its template is found by the template after other
instances have been made. The other template makes one of its own. -/
theorem instance_found_again_crating :
    let a := Operation.performAll (.empty {}) crating
    ∃ made, a.instantiate ⟨3⟩ "<char>" = .ok made ∧ made.value.2.1 = ⟨8⟩ ∧
      let b := Operation.performAll made.value.1
        [.register "Depot" .classKind {}, .instantiate 2 "<bool>", .mergeAll]
      b.instantiate ⟨2⟩ "< char >" = .ok (pure (b, ⟨8⟩, false)) ∧
        ∃ found, b.instantiate ⟨1⟩ "<char>" = .ok found ∧ found.value.2.1 ≠ ⟨8⟩ := by
  intro a
  have hmade :=
    instantiate_eq (holdsClass_and_class? a ⟨3⟩ (by decide) (by decide +kernel)).1 "<char>"
  have hid : (instanceWithin (instantiationLimit a.options) a ⟨3⟩ "<char>").value.2.1 = ⟨8⟩ := by
    decide +kernel
  refine ⟨_, hmade, hid, ?_⟩
  intro b
  have hbox := (holdsClass_and_class? b ⟨2⟩ (by decide) (by decide +kernel)).1
  have hcrate := (holdsClass_and_class? b ⟨1⟩ (by decide) (by decide +kernel)).1
  obtain ⟨-, found, hfound, hsame, -⟩ :=
    instance_found_again {} crating _ 3 "<char>" hmade ⟨2⟩ "< char >" hbox
  obtain ⟨-, found', hfound', -, hother⟩ :=
    instance_found_again {} crating _ 3 "<char>" hmade ⟨1⟩ "<char>" hcrate
  refine ⟨?_, found', hfound', ?_⟩
  · rw [hfound, hsame (by decide +kernel) (by decide +kernel), hid]
  · rw [← hid]
    exact hother (.inl (by decide +kernel))

end SymbolAtlas.Atlas
