import SymbolAtlas.Proofs.Atlas.Instances
import SymbolAtlas.Proofs.Atlas.Operations

/-!
# Operations in place

The operations on an atlas give a new atlas, or a fault and nothing else. Here they are broken up
into what is looked up and what is stored, one after the other: the bases of an instance are looked
up when the instance is there already, and the second half of an edge when the first one is stored.
A fault on the way leaves behind what has been stored by then. In an atlas in which classes refer to
nothing but classes, this never happens: an operation is refused at once, for a number that is passed
to it, or it goes through, with the result that it is meant to have.
-/

set_option autoImplicit false

namespace SymbolAtlas

variable {edge : BaseEdge}

theorem Noted.bind_congr {α β : Type} {x : Noted α} {f g : α → Noted β}
    (h : f x.value = g x.value) : x >>= f = x >>= g := by
  show Noted.mk _ _ = Noted.mk _ _
  rw [h]

/-- A computation that works on an atlas in place and may stop with a fault. -/
abbrev InPlace (α : Type) :=
  ExceptT Fault (StateT Atlas Noted) α

namespace InPlace

variable {α β : Type} {a : Atlas} {fault : Fault} {x : InPlace α} {f : α → InPlace β}
variable {look : Atlas → Except Fault α}

/-- The outcome of a computation, and the atlas that it leaves behind. -/
def on (x : InPlace α) (a : Atlas) : Noted (Except Fault α × Atlas) :=
  x.run.run a

/-- Looks up what has to be there. -/
def demand (look : Atlas → Except Fault α) : InPlace α :=
  ExceptT.mk fun a => pure (look a, a)

/-- Stores something. -/
def store (change : Atlas → Noted (Atlas × α)) : InPlace α :=
  ExceptT.mk fun a => do
    let (a, value) ← change a
    return (.ok value, a)

/-- Stores something that gives no result. -/
def amend (change : Atlas → Noted Atlas) : InPlace Unit :=
  store fun a => (·, ()) <$> change a

/-- The computation goes through, with a result. -/
def Completes (x : InPlace α) (a : Atlas) (made : Noted (Atlas × α)) : Prop :=
  x.on a = (fun m => (.ok m.2, m.1)) <$> made

/-- The computation stops at once, and has stored nothing. -/
def Refuses (x : InPlace α) (a : Atlas) (fault : Fault) : Prop :=
  x.on a = pure (.error fault, a)

theorem completes_pure (value : α) (a : Atlas) :
    Completes (pure value) a (pure (a, value)) :=
  rfl

theorem completes_demand {value : α} (h : look a = .ok value) :
    Completes (demand look) a (pure (a, value)) := by
  show pure (look a, a) = _
  rw [h]
  rfl

theorem refuses_demand (h : look a = .error fault) : Refuses (demand look) a fault := by
  show pure (look a, a) = _
  rw [h]

theorem completes_store (change : Atlas → Noted (Atlas × α)) (a : Atlas) :
    Completes (store change) a (change a) :=
  rfl

theorem completes_amend (change : Atlas → Noted Atlas) (a : Atlas) :
    Completes (amend change) a ((·, ()) <$> change a) :=
  rfl

/-- A computation goes on, or stops for good. -/
def andThen (f : α → InPlace β) : Except Fault α × Atlas → Noted (Except Fault β × Atlas)
  | (.ok value, a) => (f value).on a
  | (.error fault, a) => pure (.error fault, a)

theorem on_bind (x : InPlace α) (f : α → InPlace β) (a : Atlas) :
    (x >>= f).on a = x.on a >>= andThen f := by
  show (x.on a >>= fun p => (ExceptT.bindCont f p.1).run p.2) = _
  refine Noted.bind_congr ?_
  obtain ⟨outcome, b⟩ := (x.on a).value
  cases outcome <;> rfl

theorem Completes.bind {made : Noted (Atlas × α)} (h : Completes x a made)
    {g : Atlas × α → Noted (Atlas × β)}
    (hf : Completes (f made.value.2) made.value.1 (g made.value)) :
    Completes (x >>= f) a (made >>= g) := by
  unfold Completes
  rw [on_bind, h, map_bind, bind_map_left]
  exact Noted.bind_congr hf

theorem Completes.bind_pure {value : α} (h : Completes x a (pure (a, value)))
    {made : Noted (Atlas × β)} (hf : Completes (f value) a made) : Completes (x >>= f) a made := by
  have hbind := h.bind (g := fun _ => made) hf
  rwa [pure_bind] at hbind

theorem Completes.after_amend {change : Atlas → Noted Atlas} {b : Atlas} (hb : change a = pure b)
    {x : Unit → InPlace β} {made : Noted (Atlas × β)} (hx : Completes (x ()) b made) :
    Completes (amend change >>= x) a made := by
  have hstored := completes_amend change a
  rw [hb, map_pure] at hstored
  have hbind := hstored.bind (g := fun _ => made) hx
  rwa [pure_bind] at hbind

theorem Refuses.bind (h : Refuses x a fault) (f : α → InPlace β) : Refuses (x >>= f) a fault := by
  unfold Refuses
  rw [on_bind, h]
  rfl

theorem Completes.bind_refuses {value : α} (h : Completes x a (pure (a, value)))
    (hf : Refuses (f value) a fault) : Refuses (x >>= f) a fault := by
  unfold Refuses
  rw [on_bind, h, map_pure]
  exact hf

theorem completes_forM {P : Atlas → Prop} {f : α → InPlace Unit} {g : Atlas → α → Noted Atlas}
    {xs : List α}
    (hstep : ∀ b, P b → ∀ x ∈ xs, Completes (f x) b ((·, ()) <$> g b x) ∧ P (g b x).value)
    (ha : P a) : Completes (xs.forM f) a ((·, ()) <$> xs.foldlM g a) ∧ P (xs.foldlM g a).value := by
  induction xs generalizing a with
  | nil => exact ⟨rfl, ha⟩
  | cons x xs ih =>
    obtain ⟨hfirst, hnext⟩ := hstep a ha x List.mem_cons_self
    obtain ⟨hrest, hlast⟩ := ih (fun b hb y hy => hstep b hb y (List.mem_cons_of_mem x hy)) hnext
    refine ⟨?_, hlast⟩
    have hboth := hfirst.bind (f := fun _ => xs.forM f)
      (g := fun m => (·, ()) <$> xs.foldlM g m.1) hrest
    rwa [bind_map_left, ← map_bind] at hboth

/-! ## Edges -/

/-- Lists a derived class with its base. -/
def linkDerived (parent : EntityId) (edge : BaseEdge) : InPlace Unit := do
  let child ← demand (·.requireEntity edge.target)
  let isLeftOut ← demand fun a => .ok (child.protection == .priv && !a.options.extractPrivate)
  if isLeftOut then return ()
  else
    let _ ← demand (·.requireClass parent)
    amend fun a => pure (a.modifyClass parent fun c =>
      { c with derived := a.insertDerived edge c.derived, isSimple := false })

/-- Makes a class derive from another one: the base is stored first, the derived class second. -/
def insertBase (child : EntityId) (edge : BaseEdge) : InPlace Unit := do
  let _ ← demand (·.requireClass child)
  let _ ← demand (·.requireClass edge.target)
  if edge.target = child then
    amend fun a => do
      .give (.selfBase (a.name child))
      return a
  else
    amend fun a => pure (a.modifyClass child fun c =>
      { c with bases := c.bases ++ [edge], isSimple := false })
    linkDerived edge.target { edge with target := child, usedName := none }

/-! ## Instances -/

/-- The instance of a template with arguments, found or added; `finish` is to give it its bases. -/
def instanceWith (finish : (instanceId generic : EntityId) → String → InPlace Unit)
    (template : EntityId) (spec : String) : InPlace (EntityId × Bool) := do
  let t ← demand (·.requireClass template)
  let generic := t.templateMaster.getD template
  let key := Text.normalized spec
  let g ← demand (·.requireClass generic)
  match g.instances.get? key with
  | some id => return (id, false)
  | none =>
    let master ← demand (·.requireEntity generic)
    let id ← store (·.addInstance generic master key)
    finish id generic key
    return (id, true)

/-- Gives an instance one base of its template. -/
def instantiateBase (nested : EntityId → String → InPlace (EntityId × Bool)) (i : Instantiation)
    (instanceId : EntityId) (edge : BaseEdge) : InPlace Unit := do
  let templateSpec := i.apply edge.templateSpec
  let isTemplate ← demand fun a => .ok ((a.class? edge.target).any (·.isTemplate))
  if templateSpec != "" && isTemplate then
    let made ← nested edge.target templateSpec
    insertBase instanceId { edge with target := made.1, templateSpec }
  else insertBase instanceId { edge with templateSpec }

/-- Gives an instance the bases of its template. -/
def instantiateBases (nested : EntityId → String → InPlace (EntityId × Bool))
    (instanceId generic : EntityId) (key : String) : InPlace Unit := do
  let g ← demand (·.requireClass generic)
  let i : Instantiation :=
    { formals := g.formals, actuals := (Signature.readTemplateArguments key).arguments }
  g.bases.forM (instantiateBase nested i instanceId)

/-- The instance of a template with arguments, found or added, with its bases so many levels deep. -/
def instanceWithin : Nat → EntityId → String → InPlace (EntityId × Bool)
  | 0 => instanceWith fun id _ _ => amend fun a => do
    .give (.instantiationTooDeep (a.name id))
    return a
  | levels + 1 => instanceWith (instantiateBases (instanceWithin levels))

/-- The instance of a template for a variable, found or added. -/
def instantiateVariable (template : EntityId) (spec : String) : InPlace EntityId := do
  let t ← demand (·.requireClass template)
  let generic := t.templateMaster.getD template
  let key := Text.normalized spec
  let g ← demand (·.requireClass generic)
  match g.variableInstances.get? key with
  | some id => return id
  | none =>
    let master ← demand (·.requireEntity generic)
    store fun a => do
      let (a, id) := a.allocate (Text.normalized (master.name ++ key)) .classKind Atlas.codeLocation
      let a := a.modifyEntity id fun e => { e with language := master.language }
      let a ← a.copyMembers id generic key
      let a := a.modifyClass id fun c => { c with templateMaster := some generic }
      let a := a.modifyClass generic fun c =>
        { c with variableInstances := c.variableInstances.insert key id }
      return (a, id)

end InPlace

namespace Atlas

variable {a b c : Atlas}
variable {id : EntityId}

/-! ## Classes that refer to classes -/

/-- The number leads to a class. -/
def LeadsToClass (a : Atlas) (id : EntityId) : Prop :=
  ∃ c, a.requireClass id = .ok c

theorem requireClass_eq_ok_iff {c : ClassBody} :
    a.requireClass id = .ok c ↔ a.class? id = some c := by
  refine ⟨class?_of_requireClass, fun hc => ?_⟩
  obtain ⟨e, he, hc⟩ := Option.bind_eq_some_iff.mp hc
  simp only [requireClass, he, hc]

theorem leadsToClass_iff : a.LeadsToClass id ↔ ∃ l, a.lineage? id = some l := by
  unfold LeadsToClass
  simp only [requireClass_eq_ok_iff, lineage?_eq_map, Option.map_eq_some_iff]
  constructor
  · rintro ⟨c, hc⟩
    exact ⟨c.lineage, c, hc, rfl⟩
  · rintro ⟨_, c, hc, -⟩
    exact ⟨c, hc⟩

theorem genericOf_of_requireClass {c : ClassBody} (h : a.requireClass id = .ok c) :
    a.genericOf id = c.templateMaster.getD id := by
  rw [genericOf, class?_of_requireClass h]
  rfl

theorem leadsToClass_of_holdsClass (h : a.HoldsClass id) : a.LeadsToClass id := by
  obtain ⟨-, r, hr⟩ := holdsClass_iff.mp h
  obtain ⟨c, hc, -⟩ := Option.map_eq_some_iff.mp hr
  exact ⟨c, requireClass_eq_ok_iff.mpr hc⟩

theorem requireEntity_of_entity? {e : Entity} (h : a.entity? id = some e) :
    a.requireEntity id = .ok e := by
  rw [requireEntity, h]

theorem LeadsToClass.exists_entity (h : a.LeadsToClass id) : ∃ e, a.entity? id = some e := by
  obtain ⟨c, hc⟩ := h
  obtain ⟨e, he, -⟩ := Option.bind_eq_some_iff.mp (class?_of_requireClass hc)
  exact ⟨e, he⟩

theorem LeadsToClass.modifyClass (h : a.LeadsToClass id) (id' : EntityId)
    (f : ClassBody → ClassBody) : (a.modifyClass id' f).LeadsToClass id := by
  obtain ⟨c, hc⟩ := h
  obtain ⟨e, he, hc⟩ := Option.bind_eq_some_iff.mp (class?_of_requireClass hc)
  unfold LeadsToClass
  simp only [requireClass_eq_ok_iff, class?, Atlas.modifyClass, entity?_modifyEntity, he]
  split
  · exact ⟨f c, by rw [Option.map_some, Option.bind_some, Entity.class?_modifyClass, hc]; rfl⟩
  · exact ⟨c, hc⟩

/-- Kinds say what is a class, and the bases, templates and instances of classes are classes. -/
structure IsConnected (a : Atlas) : Prop where
  kinds : ∀ id s, a.standing? id = some s → (a.lineage? id).isSome = !s.kind.isNamespaceLike
  bases : ∀ id, ∀ edge ∈ a.bases id, a.LeadsToClass edge.target
  templateMaster : ∀ id l, a.lineage? id = some l → ∀ generic ∈ l.templateMaster,
    a.LeadsToClass generic
  instances : ∀ id l, a.lineage? id = some l → l.instances.All a.LeadsToClass

/-- The atlas has been changed, and is still connected. -/
structure Connects (a b : Atlas) : Prop where
  isConnected : b.IsConnected
  leadsToClass : ∀ id, a.LeadsToClass id → b.LeadsToClass id

theorem Connects.trans (h : a.Connects b) (h' : b.Connects c) : a.Connects c :=
  ⟨h'.isConnected, fun id hid => h'.leadsToClass id (h.leadsToClass id hid)⟩

theorem IsWired.isConnected (h : a.IsWired) : a.IsConnected where
  kinds id s hs := by
    obtain ⟨e, he, rfl⟩ := Option.map_eq_some_iff.mp hs
    have hkind := h.kinds id e.profile (by rw [profile?, he]; rfl)
    rw [lineage?, he, Option.bind_some, Entity.lineage?, Option.isSome_map]
    rwa [Entity.profile, Option.isSome_map] at hkind
  bases id edge hedge := leadsToClass_of_holdsClass (h.holdsClass_of_mem_bases hedge)
  templateMaster id l hl generic hgeneric := by
    rw [lineage?_eq_map] at hl
    obtain ⟨c, hc, rfl⟩ := Option.map_eq_some_iff.mp hl
    have hwired := h.relations id c.relations (by rw [relations?, hc]; rfl)
    exact leadsToClass_of_holdsClass (hwired.templateMaster generic hgeneric)
  instances id l hl := by
    rw [lineage?_eq_map] at hl
    obtain ⟨c, hc, rfl⟩ := Option.map_eq_some_iff.mp hl
    have hwired := h.relations id c.relations (by rw [relations?, hc]; rfl)
    exact (hwired.cache .instances).mono fun _ => leadsToClass_of_holdsClass

namespace IsConnected

theorem refl (h : a.IsConnected) : a.Connects a :=
  ⟨h, fun _ hid => hid⟩

theorem leadsToClass_genericOf (h : a.IsConnected) {id : EntityId} {c : ClassBody}
    (hc : a.requireClass id = .ok c) : a.LeadsToClass (a.genericOf id) := by
  rw [genericOf_of_requireClass hc]
  cases hmaster : c.templateMaster with
  | none => exact ⟨c, hc⟩
  | some generic =>
    have hl : a.lineage? id = some c.lineage := by
      rw [lineage?_eq_map, class?_of_requireClass hc]
      rfl
    exact h.templateMaster id c.lineage hl generic hmaster

theorem linkBase (h : a.IsConnected) (child : EntityId) (htarget : a.LeadsToClass edge.target) :
    a.Connects (a.linkBase child edge).value := by
  have hlineage := a.lineage?_linkBase_eq_map child edge
  have hclass (id : EntityId) (hid : a.LeadsToClass id) :
      (a.linkBase child edge).value.LeadsToClass id := by
    obtain ⟨l, hl⟩ := leadsToClass_iff.mp hid
    exact leadsToClass_iff.mpr ⟨_, by rw [hlineage, hl]; rfl⟩
  refine ⟨⟨fun id s hs => ?_, fun id edge' hedge => hclass _ ?_, fun id l hl => ?_,
    fun id l hl => ?_⟩, hclass⟩
  · rw [standing?_linkBase] at hs
    rw [hlineage, Option.isSome_map]
    exact h.kinds id s hs
  · by_cases hself : edge.target = child
    · rw [a.linkBase_self hself] at hedge
      exact h.bases id edge' hedge
    · rw [a.bases_linkBase hself] at hedge
      split at hedge
      · rcases List.mem_append.mp hedge with hedge | hedge
        · exact h.bases id edge' hedge
        · exact List.mem_singleton.mp hedge ▸ htarget
      · exact h.bases id edge' hedge
  · rw [hlineage] at hl
    obtain ⟨l', hl', rfl⟩ := Option.map_eq_some_iff.mp hl
    exact fun generic hgeneric => hclass _ (h.templateMaster id l' hl' generic hgeneric)
  · rw [hlineage] at hl
    obtain ⟨l', hl', rfl⟩ := Option.map_eq_some_iff.mp hl
    exact (h.instances id l' hl').mono hclass

theorem addInstance (h : a.IsConnected) {generic : EntityId} (hgeneric : a.LeadsToClass generic)
    {master : Entity} (hmaster : a.entity? generic = some master) (key : String) :
    a.Connects (a.addInstance generic master key).value.1 ∧
      (a.addInstance generic master key).value.1.LeadsToClass (.ofSlot a.entities.size) := by
  obtain ⟨l, hl⟩ := leadsToClass_iff.mp hgeneric
  have hkind := isNamespaceLike_eq_false_of_kinds h.kinds hmaster hl
  have hlineage := lineage?_addInstance key hl hkind
  have hstanding (id : EntityId) :=
    ((a.agrees_addInstance generic master key).kin.standing?_eq id).trans
      (a.standing?_withInstance generic master key id)
  have hnew : (a.addInstance generic master key).value.1.LeadsToClass (.ofSlot a.entities.size) :=
    leadsToClass_iff.mpr ⟨_, by rw [hlineage, EntityId.slot_ofSlot, if_pos rfl]⟩
  have hclass (id : EntityId) (hid : a.LeadsToClass id) :
      (a.addInstance generic master key).value.1.LeadsToClass id := by
    obtain ⟨l', hl'⟩ := leadsToClass_iff.mp hid
    rw [leadsToClass_iff, hlineage, if_neg (Nat.ne_of_lt (slot_lt_of_lineage? hl'))]
    split
    · exact ⟨_, rfl⟩
    · exact ⟨l', hl'⟩
  refine ⟨⟨⟨fun id s hs => ?_, fun id edge hedge => hclass _ ?_, fun id l' hl' => ?_,
    fun id l' hl' => ?_⟩, hclass⟩, hnew⟩
  · rw [hstanding] at hs
    rw [hlineage]
    split at hs
    · next hid =>
      rw [if_pos hid, ← Option.some.inj hs, hkind]
      rfl
    · next hid =>
      rw [if_neg hid]
      split
      · next hslot =>
        rw [← h.kinds id s hs, ← a.lineage?_eq_of_slot hslot, hl]
        rfl
      · exact h.kinds id s hs
  · rw [bases_addInstance key hl hkind] at hedge
    exact h.bases id edge hedge
  · rw [hlineage] at hl'
    split at hl'
    · cases hl'
      rintro _ ⟨⟩
      exact hclass generic hgeneric
    · split at hl'
      · cases hl'
        exact fun master' hmaster' => hclass _ (h.templateMaster generic l hl master' hmaster')
      · exact fun master' hmaster' => hclass _ (h.templateMaster id l' hl' master' hmaster')
  · rw [hlineage] at hl'
    split at hl'
    · cases hl'
      exact .empty _
    · split at hl'
      · cases hl'
        exact ((h.instances generic l hl).mono hclass).insert key hnew
      · exact (h.instances id l' hl').mono hclass

end IsConnected

end Atlas

namespace InPlace

variable {a : Atlas} {finish : EntityId → EntityId → String → InPlace Unit}
  {nested : EntityId → String → InPlace (EntityId × Bool)}
  {finish' : Atlas → EntityId → EntityId → String → Noted Atlas}
  {nested' : Atlas → EntityId → String → Noted (Atlas × EntityId × Bool)}
variable {template : EntityId}

/-! ## Nothing fails on the way -/

/-- The computation goes through, with a connected atlas. -/
structure Reaches (x : InPlace Unit) (a : Atlas) (made : Noted Atlas) : Prop where
  completes : Completes x a ((·, ()) <$> made)
  connects : a.Connects made.value

/-- The computation goes through, with a connected atlas and a class in it. -/
structure Delivers (x : InPlace (EntityId × Bool)) (a : Atlas)
    (made : Noted (Atlas × EntityId × Bool)) : Prop where
  completes : Completes x a made
  connects : a.Connects made.value.1
  leadsToClass : made.value.1.LeadsToClass made.value.2.1

theorem completes_linkDerived {parent : EntityId} {child : Entity}
    (hchild : a.entity? edge.target = some child) (hparent : a.LeadsToClass parent) :
    Completes (linkDerived parent edge) a (pure (a.linkDerived parent edge, ())) := by
  obtain ⟨c, hc⟩ := hparent
  have hfound := Atlas.requireEntity_of_entity? hchild
  unfold linkDerived Atlas.linkDerived
  rw [hchild]
  refine (completes_demand hfound).bind_pure ((completes_demand rfl).bind_pure ?_)
  dsimp only
  split
  · exact completes_pure _ _
  · exact (completes_demand hc).bind_pure (completes_amend _ _)

section

variable (levels : Nat) (h : a.IsConnected)

include h

theorem reaches_insertBase {child : EntityId} (edge : BaseEdge) (hchild : a.LeadsToClass child)
    (htarget : a.LeadsToClass edge.target) :
    Reaches (insertBase child edge) a (a.linkBase child edge) := by
  refine ⟨?_, h.linkBase child htarget⟩
  obtain ⟨c, hc⟩ := id hchild
  obtain ⟨c', hc'⟩ := id htarget
  unfold insertBase Atlas.linkBase
  refine (completes_demand hc).bind_pure ((completes_demand hc').bind_pure ?_)
  split
  · exact completes_amend _ _
  · obtain ⟨e, he⟩ := (hchild.modifyClass child fun c =>
      { c with bases := c.bases ++ [edge], isSimple := false }).exists_entity
    exact .after_amend rfl (completes_linkDerived he (htarget.modifyClass child _))

/-- In place, the same instance is delivered as by the pure function. -/
theorem delivers_instanceWith
    (hfinish : ∀ b id generic key, b.IsConnected → b.LeadsToClass id → b.LeadsToClass generic →
      Reaches (finish id generic key) b (finish' b id generic key)) (ht : a.LeadsToClass template)
    (spec : String) :
    Delivers (instanceWith finish template spec) a (Atlas.instanceWith finish' a template spec) := by
  obtain ⟨t, ht⟩ := ht
  have hgeneric := h.leadsToClass_genericOf ht
  rw [Atlas.genericOf_of_requireClass ht] at hgeneric
  obtain ⟨g, hg⟩ := id hgeneric
  obtain ⟨master, hmaster⟩ := hgeneric.exists_entity
  unfold Atlas.instanceWith
  dsimp only
  rw [Atlas.genericOf_of_requireClass ht, Atlas.class?_of_requireClass hg, hmaster, Option.bind_some]
  cases hkey : g.instances.get? (Text.normalized spec) with
  | some id =>
    refine ⟨(completes_demand ht).bind_pure ((completes_demand hg).bind_pure ?_), h.refl, ?_⟩
    · rw [hkey]
      exact completes_pure _ _
    · have hl : a.lineage? (t.templateMaster.getD template) = some g.lineage := by
        rw [Atlas.lineage?_eq_map, Atlas.class?_of_requireClass hg]
        rfl
      exact h.instances _ _ hl _ id hkey
  | none =>
    obtain ⟨hadded, hid⟩ := h.addInstance hgeneric hmaster (Text.normalized spec)
    have hdone := hfinish _ _ _ (Text.normalized spec) hadded.isConnected hid
      (hadded.leadsToClass _ hgeneric)
    have hfound := Atlas.requireEntity_of_entity? hmaster
    refine ⟨(completes_demand ht).bind_pure ((completes_demand hg).bind_pure ?_),
      hadded.trans hdone.connects, hdone.connects.leadsToClass _ hid⟩
    rw [hkey]
    refine (completes_demand hfound).bind_pure ((completes_store _ a).bind ?_)
    have hreturn := hdone.completes.bind
      (f := fun _ => pure (EntityId.ofSlot a.entities.size, true))
      (g := fun m => pure (m.1, EntityId.ofSlot a.entities.size, true)) (completes_pure _ _)
    rwa [bind_map_left] at hreturn

theorem reaches_instantiateBase
    (hnested : ∀ b template spec, b.IsConnected → b.LeadsToClass template →
      Delivers (nested template spec) b (nested' b template spec))
    (i : Instantiation) {instanceId : EntityId} (hinstance : a.LeadsToClass instanceId)
    (hedge : a.LeadsToClass edge.target) : Reaches (instantiateBase nested i instanceId edge) a
      (Atlas.instantiateBase nested' i instanceId a edge) := by
  unfold instantiateBase Atlas.instantiateBase Atlas.isNested
  dsimp only
  split
  · next hnests =>
    have hmade := hnested a edge.target (i.apply edge.templateSpec) h hedge
    have hlinked := reaches_insertBase hmade.connects.isConnected
      { edge with
        target := (nested' a edge.target (i.apply edge.templateSpec)).value.2.1
        templateSpec := i.apply edge.templateSpec }
      (hmade.connects.leadsToClass instanceId hinstance) hmade.leadsToClass
    refine ⟨(completes_demand rfl).bind_pure ?_, hmade.connects.trans hlinked.connects⟩
    rw [if_pos hnests, map_bind]
    exact hmade.completes.bind hlinked.completes
  · next hnests =>
    have hlinked := reaches_insertBase h
      { edge with templateSpec := i.apply edge.templateSpec } hinstance hedge
    refine ⟨(completes_demand rfl).bind_pure ?_, hlinked.connects⟩
    rw [if_neg hnests]
    exact hlinked.completes

theorem reaches_instantiateBases
    (hnested : ∀ b template spec, b.IsConnected → b.LeadsToClass template →
      Delivers (nested template spec) b (nested' b template spec))
    {instanceId generic : EntityId} (hinstance : a.LeadsToClass instanceId)
    (hgeneric : a.LeadsToClass generic) (key : String) :
    Reaches (instantiateBases nested instanceId generic key) a
      (Atlas.instantiateBases nested' a instanceId generic key) := by
  obtain ⟨g, hg⟩ := hgeneric
  have hbases : a.bases generic = g.bases := by
    rw [Atlas.bases, Atlas.class?_of_requireClass hg]
    rfl
  have hinstantiation : a.instantiation generic key =
      { formals := g.formals, actuals := (Signature.readTemplateArguments key).arguments } := by
    rw [Atlas.instantiation, Atlas.class?_of_requireClass hg]
    rfl
  have htargets := h.bases generic
  unfold Atlas.instantiateBases
  rw [hbases, hinstantiation]
  rw [hbases] at htargets
  have hloop := completes_forM (fun b hb edge hedge => by
    have hstep := reaches_instantiateBase hb.isConnected hnested
      { formals := g.formals, actuals := (Signature.readTemplateArguments key).arguments }
      (hb.leadsToClass _ hinstance) (hb.leadsToClass _ (htargets edge hedge))
    exact ⟨hstep.completes, hb.trans hstep.connects⟩) h.refl
  exact ⟨(completes_demand hg).bind_pure hloop.1, hloop.2⟩

theorem delivers_instanceWithin (ht : a.LeadsToClass template) (spec : String) :
    Delivers (instanceWithin levels template spec) a
      (Atlas.instanceWithin levels a template spec) := by
  induction levels generalizing a template spec with
  | zero =>
    refine delivers_instanceWith h (fun b id generic key hb _ _ => ?_) ht spec
    exact ⟨completes_amend _ _, hb.refl⟩
  | succ levels ih =>
    refine delivers_instanceWith h (fun b id generic key hb hid hgeneric => ?_) ht spec
    exact reaches_instantiateBases hb (fun c template spec hc ht => ih hc ht spec) hid
      hgeneric key

end

theorem refuses_instanceWithin (levels : Nat) {fault : Fault}
    (ht : a.requireClass template = .error fault) (spec : String) :
    Refuses (instanceWithin levels template spec) a fault := by
  cases levels with
  | zero => exact (refuses_demand ht).bind _
  | succ levels => exact (refuses_demand ht).bind _

theorem completes_instantiateVariable (h : a.IsConnected) (ht : a.LeadsToClass template)
    (spec : String) :
    ∃ made, a.instantiateVariable template spec = .ok made ∧
      Completes (instantiateVariable template spec) a made := by
  obtain ⟨t, ht⟩ := ht
  have hgeneric := h.leadsToClass_genericOf ht
  rw [Atlas.genericOf_of_requireClass ht] at hgeneric
  obtain ⟨g, hg⟩ := id hgeneric
  obtain ⟨master, hmaster⟩ := hgeneric.exists_entity
  have hfound := Atlas.requireEntity_of_entity? hmaster
  unfold Atlas.instantiateVariable instantiateVariable
  rw [ht, Atlas.genericOf_of_requireClass ht]
  dsimp only [bind, Except.bind]
  rw [hg]
  dsimp only [bind, Except.bind]
  cases hkey : g.variableInstances.get? (Text.normalized spec) with
  | some id =>
    refine ⟨_, rfl, (completes_demand ht).bind_pure ((completes_demand hg).bind_pure ?_)⟩
    rw [hkey]
    exact completes_pure _ _
  | none =>
    rw [hfound]
    refine ⟨_, rfl, (completes_demand ht).bind_pure ((completes_demand hg).bind_pure ?_)⟩
    rw [hkey]
    exact (completes_demand hfound).bind_pure (completes_store _ _)

end InPlace

end SymbolAtlas
