import Mathlib.Data.Option.Basic
import SymbolAtlas.Proofs.Atlas.Ties
import SymbolAtlas.Proofs.Text.Spacing

/-!
# How an atlas grows

Entities are added at the end, and edges at the end of the bases of a class. Making an instance of a
template adds entities and lists them as instances; all other classes keep their bases.
-/

set_option autoImplicit false

namespace SymbolAtlas

variable {l : Lineage} {spec : String} {f : Entity → Entity} {s : Standing} {category : EntityId}
  {merged : Noted Atlas}

/-- The lineage of a class that stands alone. -/
def Lineage.alone : Lineage where
  bases := []
  formals := []
  templateMaster := none
  instances := .empty

/-- The class without its bases and the classes derived from it. -/
def ClassBody.unlinked (c : ClassBody) : ClassBody :=
  { c with bases := [], derived := [], categoryOf := none, isSimple := false }

/-- The class has bases, or other classes are derived from it. -/
def ClassBody.isLinked (c : ClassBody) : Bool :=
  !(c.bases.isEmpty && c.derived.isEmpty)

/-- The class with other links. If it has got one, it is no plain data any more. -/
structure ClassBody.Relinks (c c' : ClassBody) : Prop where
  unlinked : c'.unlinked = c.unlinked
  isSimple : c'.isSimple = false ∧ c'.isLinked = true ∨
    c'.isSimple = c.isSimple ∧ c'.isLinked = c.isLinked

theorem ClassBody.relinks_append (c : ClassBody) (edge : BaseEdge) :
    c.Relinks { c with bases := c.bases ++ [edge], isSimple := false } :=
  ⟨rfl, .inl ⟨rfl, by simp [isLinked]⟩⟩

/-- The same lineage, perhaps with more instances. -/
structure Lineage.Lists (l l' : Lineage) : Prop where
  bases : l'.bases = l.bases
  formals : l'.formals = l.formals
  templateMaster : l'.templateMaster = l.templateMaster
  instances : ∀ key id, l.instances.get? key = some id → l'.instances.get? key = some id

theorem Lineage.Lists.refl (l : Lineage) : l.Lists l :=
  ⟨rfl, rfl, rfl, fun _ _ h => h⟩

theorem Lineage.Lists.trans {l' l'' : Lineage} (h : l.Lists l') (h' : l'.Lists l'') : l.Lists l'' :=
  ⟨h'.bases.trans h.bases, h'.formals.trans h.formals, h'.templateMaster.trans h.templateMaster,
    fun key id hget => h'.instances key id (h.instances key id hget)⟩

section Related

variable {α β : Type} {r : α → β → Prop} {o : Option α} {o' : Option β}

theorem isSome_eq_of_rel (h : Option.Rel r o o') : o'.isSome = o.isSome := by
  cases h <;> rfl

theorem exists_of_rel_left (h : Option.Rel r o o') {x : α} (hx : o = some x) :
    ∃ y, o' = some y ∧ r x y := by
  cases h with
  | none => cases hx
  | some hrelated =>
    cases hx
    exact ⟨_, rfl, hrelated⟩

theorem exists_of_rel_right (h : Option.Rel r o o') {y : β} (hy : o' = some y) :
    ∃ x, o = some x ∧ r x y := by
  cases h with
  | none => cases hy
  | some hrelated =>
    cases hy
    exact ⟨_, rfl, hrelated⟩

end Related

namespace Atlas

variable {id child : EntityId} {edge : BaseEdge} {a : Atlas}
variable {finish : Atlas → (instanceId generic : EntityId) → String → Noted Atlas}
variable {made : Noted (Atlas × EntityId × Bool)}

/-! ## Single changes -/

theorem lineage?_eq_of_slot (a : Atlas) {id' : EntityId} (h : id.slot = id'.slot) :
    a.lineage? id = a.lineage? id' := by
  rw [lineage?, lineage?, a.entity?_eq_of_slot h]

section

variable (a : Atlas) (name : String) (kind : EntityKind) (location : Location) (id : EntityId)

theorem lineage?_modifyClass (id' : EntityId) {f : ClassBody → ClassBody} {g : Lineage → Lineage}
    (hf : ∀ c, (f c).lineage = g c.lineage) :
    (a.modifyClass id f).lineage? id' =
      if id.slot = id'.slot then (a.lineage? id').map g else a.lineage? id' :=
  a.read_modifyEntity id id' (r := fun x => x.bind (·.lineage?)) rfl
    fun e => e.lineage?_modifyClass hf

@[simp] theorem standing?_modifyClass (id' : EntityId) (f : ClassBody → ClassBody) :
    (a.modifyClass id f).standing? id' = a.standing? id' :=
  (Agrees.modifyEntity a id fun e => e.standing_modifyClass f).entity?_eq id'

theorem lineage?_modifyEntity (id' : EntityId) (hf : ∀ e, (f e).lineage? = e.lineage?) :
    (a.modifyEntity id f).lineage? id' = a.lineage? id' :=
  a.read_modifyEntity_eq id id' (r := fun x => x.bind (·.lineage?)) hf

theorem standing?_modifyEntity (id' : EntityId) {g : Standing → Standing}
    (hf : ∀ e, (f e).standing = g e.standing) :
    (a.modifyEntity id f).standing? id' =
      if id.slot = id'.slot then (a.standing? id').map g else a.standing? id' :=
  a.read_modifyEntity id id' (r := Option.map Entity.standing) rfl fun e => congrArg some (hf e)

theorem agrees_setOuter {β : Type} {view : Entity → β}
    (hview : ∀ e outer innerClasses innerNamespaces,
      view { e with outer, innerClasses, innerNamespaces } = view e)
    (a : Atlas) (inner outer : EntityId) : Agrees view a (a.setOuter inner outer) := by
  unfold setOuter
  split
  · exact .refl view a
  · split
    · refine (Agrees.modifyEntity a inner fun e => hview e _ _ _).trans (.modifyEntity _ outer ?_)
      intro o
      split <;> exact hview o _ _ _
    · exact .refl view a

theorem frame_setOuter (inner outer : EntityId) :
    (a.setOuter inner outer).options = a.options ∧ (a.setOuter inner outer).members = a.members := by
  unfold setOuter
  split
  · exact ⟨rfl, rfl⟩
  · split <;> exact ⟨rfl, rfl⟩

theorem entity?_allocate :
    (a.allocate name kind location).1.entity? id =
      if id.slot = a.entities.size then
        some (Entity.declare (.ofSlot a.entities.size) name kind location
          a.options.inlineSimpleStruct a.options.allowSubGrouping)
      else a.entity? id := by
  unfold allocate entity?
  rw [Array.getElem?_push]

theorem size_allocate : (a.allocate name kind location).1.entities.size = a.entities.size + 1 :=
  Array.size_push _

theorem standing?_allocate :
    (a.allocate name kind location).1.standing? id =
      if id.slot = a.entities.size then
        some { name, kind, outer := none, isArtificial := false, isUsedOnly := false }
      else a.standing? id := by
  unfold standing?
  rw [entity?_allocate]
  split <;> rfl

theorem lineage?_allocate :
    (a.allocate name kind location).1.lineage? id =
      if id.slot = a.entities.size then if kind.isNamespaceLike then none else some .alone
      else a.lineage? id := by
  unfold lineage?
  rw [entity?_allocate]
  split
  · cases hkind : kind.isNamespaceLike with
    | true => simp [Entity.lineage?, Entity.class?, Entity.declare, hkind]
    | false =>
      simp [Entity.lineage?, Entity.class?, Entity.declare, hkind, ClassBody.lineage, Lineage.alone]
  · rfl

theorem agrees_linkBase (h : edge.target ≠ child) :
    Agrees Entity.ties
      (a.modifyClass child fun c => { c with bases := c.bases ++ [edge], isSimple := false })
      (a.linkBase child edge).value := by
  unfold linkBase
  rw [if_neg h]
  unfold linkDerived
  dsimp only
  split
  · exact .refl _ _
  · split
    · exact .refl _ _
    · exact agrees_modifyClass _ _ fun c => rfl

end

/-- A property that is kept when the links of a class are changed. -/
def KeptByLinks (P : Atlas → Prop) : Prop :=
  ∀ b id f, (∀ c : ClassBody, c.Relinks (f c)) → P b → P (b.modifyClass id f)

theorem isEmpty_insertDerived (a : Atlas) (edge : BaseEdge) (edges : List BaseEdge) :
    (a.insertDerived edge edges).isEmpty = false := by
  unfold insertDerived
  split
  · rfl
  · split <;> rfl

theorem linkBase_kept {P : Atlas → Prop} (hP : KeptByLinks P) (child : EntityId) (edge : BaseEdge)
    (ha : P a) : P (a.linkBase child edge).value := by
  unfold linkBase
  split
  · exact ha
  · have hchild := hP a child _ (fun c => c.relinks_append edge) ha
    dsimp only
    unfold linkDerived
    split
    · exact hchild
    · split
      · exact hchild
      · refine hP _ _ _ (fun c => ⟨rfl, .inl ⟨rfl, ?_⟩⟩) hchild
        simp [ClassBody.isLinked, isEmpty_insertDerived]

theorem linkBase_self (a : Atlas) (h : edge.target = child) :
    (a.linkBase child edge).value = a := by
  unfold linkBase
  rw [if_pos h]
  rfl

theorem lineage?_linkBase (a : Atlas) (h : edge.target ≠ child) (id : EntityId) :
    (a.linkBase child edge).value.lineage? id =
      if child.slot = id.slot then
        (a.lineage? id).map fun l => { l with bases := l.bases ++ [edge] }
      else a.lineage? id := by
  rw [(a.agrees_linkBase h).kin.lineage?_eq]
  exact a.lineage?_modifyClass child id fun c => rfl

theorem bases_linkBase (a : Atlas) (h : edge.target ≠ child) (id : EntityId) :
    (a.linkBase child edge).value.bases id =
      if (a.lineage? id).isSome = true ∧ child.slot = id.slot then a.bases id ++ [edge]
      else a.bases id := by
  rw [bases_eq_lineage?, a.lineage?_linkBase h, bases_eq_lineage?]
  cases a.lineage? id with
  | none => simp
  | some l =>
    by_cases hid : child.slot = id.slot
    · simp [hid]
    · simp [hid]

section

variable (a : Atlas) (child : EntityId) (edge : BaseEdge) (id : EntityId)

theorem lineage?_linkBase_eq_map :
    (a.linkBase child edge).value.lineage? id =
      (a.lineage? id).map fun l => { l with bases := (a.linkBase child edge).value.bases id } := by
  by_cases h : edge.target = child
  · rw [a.linkBase_self h]
    cases hl : a.lineage? id with
    | none => rfl
    | some l =>
      rw [bases_of_lineage? hl]
      rfl
  · rw [bases_eq_lineage?, a.lineage?_linkBase h]
    cases a.lineage? id with
    | none => split <;> rfl
    | some l => split <;> rfl

@[simp] theorem standing?_linkBase : (a.linkBase child edge).value.standing? id = a.standing? id :=
  linkBase_kept (P := fun b => b.standing? id = a.standing? id)
    (fun b id' f _ hb => (b.standing?_modifyClass id' id f).trans hb) child edge rfl

@[simp] theorem size_linkBase : (a.linkBase child edge).value.entities.size = a.entities.size :=
  linkBase_kept (P := fun b => b.entities.size = a.entities.size)
    (fun b id _ _ hb => (b.size_modifyEntity id _).trans hb) child edge rfl

theorem frame_linkBase :
    (a.linkBase child edge).value.options = a.options ∧
      (a.linkBase child edge).value.names = a.names ∧
      (a.linkBase child edge).value.members = a.members :=
  linkBase_kept (P := fun b => b.options = a.options ∧ b.names = a.names ∧ b.members = a.members)
    (fun _ _ _ _ hb => hb) child edge ⟨rfl, rfl, rfl⟩

end

/-- Every edge leads to another entity. -/
def LeadsOn (a : Atlas) : Prop :=
  ∀ id, ∀ edge ∈ a.bases id, edge.target.slot ≠ id.slot

theorem LeadsOn.of_bases {b : Atlas} (h : a.LeadsOn) (hbases : ∀ id, b.bases id = a.bases id) :
    b.LeadsOn := by
  intro id edge hedge
  rw [hbases] at hedge
  exact h id edge hedge

theorem LeadsOn.linkBase (h : a.LeadsOn) (hslot : edge.target.slot ≠ child.slot) :
    (a.linkBase child edge).value.LeadsOn := by
  have hne : edge.target ≠ child := fun heq => hslot (heq ▸ rfl)
  intro id edge' hedge
  rw [a.bases_linkBase hne] at hedge
  split at hedge
  · next hid =>
    rcases List.mem_append.mp hedge with hedge | hedge
    · exact h id edge' hedge
    · rw [List.mem_singleton.mp hedge]
      exact hid.2 ▸ hslot
  · exact h id edge' hedge

/-! ## An instance -/

section

variable (a : Atlas) (generic : EntityId) (master : Entity) (key : String)

theorem addInstance_eq :
    a.addInstance generic master key =
      ((a.withInstance generic master key).copyMembers (.ofSlot a.entities.size) generic key >>=
        fun b => pure (b, .ofSlot a.entities.size)) :=
  rfl

theorem agrees_addInstance :
    Agrees Entity.ties (a.withInstance generic master key)
      (a.addInstance generic master key).value.1 := by
  rw [addInstance_eq, Noted.value_bind, Noted.value_pure]
  dsimp only
  exact (SharesSkeleton.copyMembers _ _ _ _).ties

theorem size_withInstance :
    (a.withInstance generic master key).entities.size = a.entities.size + 1 := by
  unfold withInstance modifyClass
  rw [size_modifyEntity, size_modifyEntity, size_modifyEntity, size_allocate]

theorem standing?_withInstance (id : EntityId) :
    (a.withInstance generic master key).standing? id =
      if id.slot = a.entities.size then
        some {
          name := Text.normalized (master.localName ++ key)
          kind := master.kind
          outer := master.outer
          isArtificial := master.flags.isArtificial
          isUsedOnly := false }
      else a.standing? id := by
  unfold withInstance
  rw [standing?_modifyClass, standing?_modifyClass,
    standing?_modifyEntity _ _ _ (g := fun s =>
      { s with outer := master.outer, isArtificial := master.flags.isArtificial }) (by intro e; rfl),
    standing?_allocate, EntityId.slot_ofSlot]
  by_cases hid : id.slot = a.entities.size
  · rw [if_pos hid, if_pos hid, if_pos hid.symm, Option.map_some]
  · rw [if_neg hid, if_neg hid, if_neg (Ne.symm hid)]

theorem lineage?_withInstance {generic : EntityId} (master : Entity) (key : String)
    (hgeneric : generic.slot < a.entities.size) (id : EntityId) :
    (a.withInstance generic master key).lineage? id =
      if id.slot = a.entities.size then
        if master.kind.isNamespaceLike then none
        else some { Lineage.alone with templateMaster := some generic }
      else if generic.slot = id.slot then
        (a.lineage? id).map fun l =>
          { l with instances := l.instances.insert key (.ofSlot a.entities.size) }
      else a.lineage? id := by
  unfold withInstance
  rw [lineage?_modifyClass _ _ _ (g := fun l =>
      { l with instances := l.instances.insert key (.ofSlot a.entities.size) }) (by intro c; rfl),
    lineage?_modifyClass _ _ _ (g := fun l =>
      { l with templateMaster := some generic }) (by intro c; rfl),
    lineage?_modifyEntity _ _ _ (by intro e; rfl), lineage?_allocate, EntityId.slot_ofSlot]
  by_cases hid : id.slot = a.entities.size
  · rw [if_pos hid, if_pos hid.symm, if_neg (by omega)]
    split <;> rfl
  · rw [if_neg hid, if_neg hid, if_neg (Ne.symm hid)]

end

/-- A variable instance was there, or is added, filled and listed. -/
theorem instantiateVariable_cases {template : EntityId} {made : Noted (Atlas × EntityId)}
    (h : a.instantiateVariable template spec = .ok made) :
    made.value.1 = a ∨ ∃ master, a.entity? (a.genericOf template) = some master ∧
      (∀ c ∈ a.class? (a.genericOf template),
        c.variableInstances.get? (Text.normalized spec) = none) ∧
      made.value = ((((a.placeVariable master (Text.normalized spec)).copyMembers
        (.ofSlot a.entities.size) (a.genericOf template) (Text.normalized spec)).value.listVariable
          (.ofSlot a.entities.size) (a.genericOf template) (Text.normalized spec)),
        .ofSlot a.entities.size) := by
  obtain ⟨_, -, h⟩ := Except.bind_eq_ok h
  obtain ⟨c, hc, h⟩ := Except.bind_eq_ok h
  split at h
  · rw [← Except.ok.inj h]
    exact .inl rfl
  · next hfree =>
    obtain ⟨master, hmaster, h⟩ := Except.bind_eq_ok h
    refine .inr ⟨master, entity?_of_requireEntity hmaster, fun c' hc' => ?_, ?_⟩
    · cases (class?_of_requireClass hc).symm.trans hc'
      exact hfree
    · rw [← Except.ok.inj h]
      rfl

/-- What is kept when an instance is added and when it gets a base: a property of atlases, one of the
numbers of the classes that take part, and one of the numbers of new instances. -/
structure InstancesKeep (P : Atlas → Prop) (Q : Atlas → EntityId → Prop)
    (N : EntityId → Prop := fun _ => True) : Prop where
  isNew : ∀ {a}, P a → N (.ofSlot a.entities.size)
  generic : ∀ {a template}, P a → Q a template → Q a (a.genericOf template)
  listed : ∀ {a id c key id'}, P a → a.class? id = some c → c.instances.get? key = some id' → Q a id'
  base : ∀ {a id edge}, P a → edge ∈ a.bases id → Q a edge.target
  add : ∀ {a template master key}, P a → Q a template →
    a.entity? (a.genericOf template) = some master → Text.normalized key = key →
    (a.class? (a.genericOf template)).bind (·.instances.get? key) = none →
    let added := (a.addInstance (a.genericOf template) master key).value.1
    Carries P Q a added ∧ Q added (.ofSlot a.entities.size)
  link : ∀ {a child edge}, P a → Q a child → N child → Q a edge.target →
    Carries P Q a (a.linkBase child edge).value

namespace InstancesKeep

variable {P R : Atlas → Prop} {Q : Atlas → EntityId → Prop} {N : EntityId → Prop} {a : Atlas}
variable {template : EntityId}

section

variable (h : InstancesKeep P Q N)

include h

theorem instanceWith
    (hfinish : ∀ {b id} generic key, P b → Q b id → N id →
      Carries P Q b (finish b id generic key).value)
    (ha : P a) (ht : Q a template) (spec : String) :
    let made := (Atlas.instanceWith finish a template spec).value
    Carries P Q a made.1 ∧ Q made.1 made.2.1 := by
  unfold Atlas.instanceWith
  dsimp only
  split
  · next id hfound =>
    obtain ⟨c, hc, hid⟩ := Option.bind_eq_some_iff.mp hfound
    exact ⟨.refl ha, h.listed ha hc hid⟩
  · exact ⟨.refl ha, h.generic ha ht⟩
  · next master hfree hmaster =>
    obtain ⟨hadded, hnew⟩ := h.add ha ht hmaster (Text.normalized_normalized spec) hfree
    have hfinished := hfinish (a.genericOf template) (Text.normalized spec) hadded.holds hnew
      (h.isNew ha)
    exact ⟨hadded.trans hfinished, hfinished.mono hnew⟩

theorem instantiateBases {nested : Atlas → EntityId → String → Noted (Atlas × EntityId × Bool)}
    (hnested : ∀ {b template} spec, P b → Q b template →
      let made := (nested b template spec).value
      Carries P Q b made.1 ∧ Q made.1 made.2.1)
    (ha : P a) {instanceId : EntityId} (hid : Q a instanceId) (hnew : N instanceId)
    (generic : EntityId) (key : String) :
    Carries P Q a (Atlas.instantiateBases nested a instanceId generic key).value := by
  unfold Atlas.instantiateBases
  rw [Noted.value_foldlM]
  refine List.foldlRecOn _ _ (.refl ha) fun b hb edge hedge => ?_
  have htarget := hb.mono (h.base ha hedge)
  unfold instantiateBase
  dsimp only
  split
  · obtain ⟨hmade, hbase⟩ := hnested ((a.instantiation generic key).apply edge.templateSpec)
      hb.holds htarget
    have hboth := hb.trans hmade
    exact hboth.trans (h.link hboth.holds (hboth.mono hid) hnew hbase)
  · exact hb.trans (h.link hb.holds (hb.mono hid) hnew htarget)

theorem instanceWithin (levels : Nat) (ha : P a) (ht : Q a template)
    (spec : String) :
    let made := (Atlas.instanceWithin levels a template spec).value
    Carries P Q a made.1 ∧ Q made.1 made.2.1 := by
  induction levels generalizing a template spec with
  | zero => exact h.instanceWith (fun _ _ hb _ _ => .refl hb) ha ht spec
  | succ levels ih =>
    exact h.instanceWith (fun generic key hb hid hnew =>
      h.instantiateBases (fun spec hb ht => ih hb ht spec) hb hid hnew generic key) ha ht spec

theorem instantiate (ha : P a) (ht : Q a template)
    (hmade : a.instantiate template spec = .ok made) :
    Carries P Q a made.value.1 ∧ Q made.value.1 made.value.2.1 := by
  obtain ⟨_, -, hmade⟩ := Except.bind_eq_ok hmade
  cases hmade
  exact h.instanceWithin _ ha ht spec

theorem and (hadd : ∀ {a template master} key, P a → Q a template →
      a.entity? (a.genericOf template) = some master → R a →
      R (a.addInstance (a.genericOf template) master key).value.1)
    (hlink : ∀ {a} child edge, R a → R (a.linkBase child edge).value) :
    InstancesKeep (fun b => P b ∧ R b) Q N where
  isNew ha := h.isNew ha.1
  generic ha := h.generic ha.1
  listed ha := h.listed ha.1
  base ha := h.base ha.1
  add ha ht hmaster hkey hfree := by
    obtain ⟨hadded, hnew⟩ := h.add ha.1 ht hmaster hkey hfree
    exact ⟨⟨⟨hadded.holds, hadd _ ha.1 ht hmaster ha.2⟩, hadded.mono⟩, hnew⟩
  link ha hchild hnew hparent := by
    have hlinked := h.link ha.1 hchild hnew hparent
    exact ⟨⟨hlinked.holds, hlink _ _ ha.2⟩, hlinked.mono⟩

end

theorem of_always
    (hadd : ∀ a generic master key, a.entity? generic = some master → P a →
      P (a.addInstance generic master key).value.1)
    (hlink : ∀ a child edge, P a → P (a.linkBase child edge).value) :
    InstancesKeep P fun _ _ => True where
  isNew _ := trivial
  generic _ _ := trivial
  listed _ _ _ := trivial
  base _ _ := trivial
  add ha _ hmaster _ _ := ⟨⟨hadd _ _ _ _ hmaster ha, fun _ => trivial⟩, trivial⟩
  link ha _ _ _ := ⟨hlink _ _ _ ha, fun _ => trivial⟩

end InstancesKeep

/-! ## Instances of instances -/

/-- The atlas `b` is `a` with instances of templates added. -/
structure Spawns (a b : Atlas) : Prop where
  names : b.names = a.names
  size : a.entities.size ≤ b.entities.size
  standing : ∀ id, id.slot < a.entities.size → b.standing? id = a.standing? id
  lineage : ∀ id, id.slot < a.entities.size →
    Option.Rel Lineage.Lists (a.lineage? id) (b.lineage? id)
  fresh : ∀ id s, a.entities.size ≤ id.slot → b.standing? id = some s →
    s.isUsedOnly = false ∧ ∃ id' s', a.standing? id' = some s' ∧ s'.kind = s.kind

theorem slot_lt_of_entity? {e : Entity} (h : a.entity? id = some e) : id.slot < a.entities.size :=
  (Array.getElem?_eq_some_iff.mp h).1

theorem slot_lt_of_standing? (h : a.standing? id = some s) : id.slot < a.entities.size :=
  (a.standing?_isSome_iff id).mp (by rw [h]; rfl)

theorem slot_lt_of_lineage? (h : a.lineage? id = some l) : id.slot < a.entities.size :=
  (a.standing?_isSome_iff id).mp (isSome_standing?_of_lineage? h)

namespace Spawns

variable {a b c : Atlas}

theorem of_agrees (h : Agrees Entity.kin a b) : Spawns a b where
  names := h.1
  size := Nat.le_of_eq h.size.symm
  standing id _ := h.standing?_eq id
  lineage id _ := by
    rw [h.lineage?_eq id]
    cases a.lineage? id with
    | none => exact .none
    | some l => exact .some (.refl l)
  fresh id s hid hs := by
    have hlt := slot_lt_of_standing? hs
    rw [h.size] at hlt
    exact absurd hlt (Nat.not_lt.mpr hid)

theorem refl (a : Atlas) : Spawns a a :=
  .of_agrees (.refl _ a)

theorem exists_lineage (h : Spawns a b) {id : EntityId} (hl : a.lineage? id = some l) :
    ∃ l', b.lineage? id = some l' ∧ l.Lists l' :=
  exists_of_rel_left (h.lineage id (slot_lt_of_lineage? hl)) hl

theorem trans (h : Spawns a b) (h' : Spawns b c) : Spawns a c where
  names := h'.names.trans h.names
  size := Nat.le_trans h.size h'.size
  standing id hid := (h'.standing id (Nat.lt_of_lt_of_le hid h.size)).trans (h.standing id hid)
  lineage id hid := by
    have hfirst := h.lineage id hid
    have hsecond := h'.lineage id (Nat.lt_of_lt_of_le hid h.size)
    generalize a.lineage? id = l at hfirst
    generalize b.lineage? id = l' at hfirst hsecond
    generalize c.lineage? id = l'' at hsecond
    cases hfirst with
    | none => exact hsecond
    | some hlists =>
      cases hsecond with
      | some hlists' => exact .some (hlists.trans hlists')
  fresh id s hid hs := by
    have hold (id' : EntityId) (s' : Standing) (hs' : b.standing? id' = some s') :
        ∃ id'' s'', a.standing? id'' = some s'' ∧ s''.kind = s'.kind := by
      by_cases hid' : id'.slot < a.entities.size
      · exact ⟨id', s', (h.standing id' hid').symm.trans hs', rfl⟩
      · exact (h.fresh id' s' (Nat.not_lt.mp hid') hs').2
    by_cases hid' : id.slot < b.entities.size
    · rw [h'.standing id hid'] at hs
      exact h.fresh id s hid hs
    · obtain ⟨hused, id', s', hs', hkind⟩ := h'.fresh id s (Nat.not_lt.mp hid') hs
      obtain ⟨id'', s'', hs'', hkind'⟩ := hold id' s' hs'
      exact ⟨hused, id'', s'', hs'', hkind'.trans hkind⟩

theorem kinds (h : Spawns a b) {P : EntityKind → Prop}
    (ha : ∀ id s, a.standing? id = some s → P s.kind) {id : EntityId}
    (hs : b.standing? id = some s) : P s.kind := by
  by_cases hid : id.slot < a.entities.size
  · rw [h.standing id hid] at hs
    exact ha id s hs
  · obtain ⟨-, id', s', hs', hkind⟩ := h.fresh id s (Nat.not_lt.mp hid) hs
    exact hkind ▸ ha id' s' hs'

theorem linkBase (h : Spawns a b) {child : EntityId} (hchild : a.entities.size ≤ child.slot)
    (edge : BaseEdge) : Spawns a (b.linkBase child edge).value where
  names := (b.frame_linkBase child edge).2.1.trans h.names
  size := (b.size_linkBase child edge).symm ▸ h.size
  standing id hid := (b.standing?_linkBase child edge id).trans (h.standing id hid)
  lineage id hid := by
    by_cases htarget : edge.target = child
    · rw [b.linkBase_self htarget]
      exact h.lineage id hid
    · rw [b.lineage?_linkBase htarget, if_neg (by omega)]
      exact h.lineage id hid
  fresh id s hid hs := by
    rw [standing?_linkBase] at hs
    exact h.fresh id s hid hs

theorem addInstance {generic : EntityId} {master : Entity} {key : String}
    (hmaster : a.entity? generic = some master)
    (hkey : (a.lineage? generic).bind (·.instances.get? key) = none) :
    Spawns a (a.addInstance generic master key).value.1 := by
  refine Spawns.trans ?_ (.of_agrees (a.agrees_addInstance generic master key).kin)
  have hgeneric := slot_lt_of_entity? hmaster
  refine ⟨rfl, ?_, fun id hid => ?_, fun id hid => ?_, fun id s hid hs => ?_⟩
  · rw [size_withInstance]
    exact Nat.le_succ _
  · rw [standing?_withInstance, if_neg (Nat.ne_of_lt hid)]
  · rw [a.lineage?_withInstance master key hgeneric, if_neg (Nat.ne_of_lt hid)]
    split
    · next hslot =>
      rw [a.lineage?_eq_of_slot hslot] at hkey
      cases hl : a.lineage? id with
      | none => exact .none
      | some l =>
        rw [hl] at hkey
        refine .some ⟨rfl, rfl, rfl, fun key' id' hget => ?_⟩
        -- The key is new, so no instance is replaced.
        exact Dict.get?_insert_of_free hkey _ hget
    · cases a.lineage? id with
      | none => exact .none
      | some l => exact .some (.refl l)
  · rw [standing?_withInstance] at hs
    split at hs
    · obtain rfl := Option.some.inj hs
      refine ⟨rfl, generic, master.standing, ?_, rfl⟩
      rw [standing?, hmaster]
      rfl
    · have hlt := slot_lt_of_standing? hs
      exact absurd hlt (Nat.not_lt.mpr hid)

theorem instancesKeep (a : Atlas) :
    InstancesKeep (Spawns a) (fun _ _ => True) fun id => a.entities.size ≤ id.slot where
  isNew hb := hb.size
  generic _ _ := trivial
  listed _ _ _ := trivial
  base _ _ := trivial
  add hb _ hmaster _ hfree := by
    refine ⟨⟨hb.trans (.addInstance hmaster ?_), fun _ => trivial⟩, trivial⟩
    rw [lineage?_eq_map, Option.bind_map]
    exact hfree
  link hb _ hchild _ := ⟨hb.linkBase hchild _, fun _ => trivial⟩

theorem instantiate {template : EntityId} (h : a.instantiate template spec = .ok made) :
    Spawns a made.value.1 :=
  ((instancesKeep a).instantiate (.refl a) trivial h).1.holds

end Spawns

/-! ## Going on -/

/-- Whatever an entity is in `a`, it is in `b`, perhaps with more bases behind those it had. -/
structure Continues (a b : Atlas) : Prop where
  standing : ∀ id s, a.standing? id = some s → ∃ s', b.standing? id = some s' ∧ s'.name = s.name ∧
    s'.isUsedOnly = s.isUsedOnly ∧ (s.isArtificial = true → s'.isArtificial = true)
  lineage : ∀ id l, a.lineage? id = some l → ∃ l', b.lineage? id = some l' ∧ l.bases <+: l'.bases

/-- The atlas goes on, and no placeholder is added. -/
structure Settles (a b : Atlas) : Prop extends Continues a b where
  placeholders : ∀ id s, b.standing? id = some s → s.isUsedOnly = true →
    ∃ s', a.standing? id = some s' ∧ s'.isUsedOnly = true

theorem Continues.trans {b c : Atlas} (h : a.Continues b) (h' : b.Continues c) : a.Continues c := by
  constructor
  · intro id s hs
    obtain ⟨s', hs', hname, hused, hartificial⟩ := h.standing id s hs
    obtain ⟨s'', hs'', hname', hused', hartificial'⟩ := h'.standing id s' hs'
    exact ⟨s'', hs'', hname'.trans hname, hused'.trans hused,
      fun hs => hartificial' (hartificial hs)⟩
  · intro id l hl
    obtain ⟨l', hl', hbases⟩ := h.lineage id l hl
    obtain ⟨l'', hl'', hbases'⟩ := h'.lineage id l' hl'
    exact ⟨l'', hl'', hbases.trans hbases'⟩

theorem Continues.mem_bases {b : Atlas} (h : a.Continues b) (hedge : edge ∈ a.bases id) :
    edge ∈ b.bases id := by
  cases hl : a.lineage? id with
  | none =>
    rw [bases_eq_lineage?, hl] at hedge
    simp at hedge
  | some l =>
    rw [bases_of_lineage? hl] at hedge
    obtain ⟨l', hl', hbases⟩ := h.lineage id l hl
    rw [bases_of_lineage? hl']
    exact hbases.subset hedge

namespace Settles

variable {a b c : Atlas}

theorem of_agrees (h : Agrees Entity.kin a b) : Settles a b where
  standing id s hs := ⟨s, (h.standing?_eq id).trans hs, rfl, rfl, fun hs => hs⟩
  lineage id l hl := ⟨l, (h.lineage?_eq id).trans hl, List.prefix_rfl⟩
  placeholders id s hs hused := ⟨s, (h.standing?_eq id).symm.trans hs, hused⟩

theorem refl (a : Atlas) : Settles a a :=
  .of_agrees (.refl _ a)

theorem trans (h : Settles a b) (h' : Settles b c) : Settles a c where
  toContinues := h.toContinues.trans h'.toContinues
  placeholders id s hs hused := by
    obtain ⟨s', hs', hused'⟩ := h'.placeholders id s hs hused
    exact h.placeholders id s' hs' hused'

theorem foldl {α : Type} {f : Atlas → α → Atlas} (hf : ∀ a x, Settles a (f a x)) (xs : List α)
    (a : Atlas) : Settles a (xs.foldl f a) :=
  foldl_kept (P := fun b => Settles a b) (fun b x h => h.trans (hf b x)) xs (.refl a)

theorem appendBase (a : Atlas) (child : EntityId) (edge : BaseEdge) :
    Settles a (a.modifyClass child fun c =>
      { c with bases := c.bases ++ [edge], isSimple := false }) where
  standing id s hs := ⟨s, (a.standing?_modifyClass child id _).trans hs, rfl, rfl, fun hs => hs⟩
  lineage id l hl := by
    rw [a.lineage?_modifyClass child id (g := fun l => { l with bases := l.bases ++ [edge] })
      (by intro c; rfl), hl]
    split
    · exact ⟨_, rfl, List.prefix_append _ _⟩
    · exact ⟨l, rfl, List.prefix_rfl⟩
  placeholders id s hs hused := ⟨s, (a.standing?_modifyClass child id _).symm.trans hs, hused⟩

theorem linkBase (a : Atlas) (child : EntityId) (edge : BaseEdge) :
    Settles a (a.linkBase child edge).value := by
  by_cases h : edge.target = child
  · rw [a.linkBase_self h]
    exact .refl a
  · exact (appendBase a child edge).trans (.of_agrees (a.agrees_linkBase h).kin)

theorem of_spawns (h : Spawns a b) : Settles a b where
  standing id s hs :=
    ⟨s, (h.standing id (slot_lt_of_standing? hs)).trans hs, rfl, rfl, fun hs => hs⟩
  lineage id l hl := by
    obtain ⟨l', hl', hlists⟩ := h.exists_lineage hl
    exact ⟨l', hl', hlists.bases ▸ List.prefix_rfl⟩
  placeholders id s hs hused := by
    by_cases hid : id.slot < a.entities.size
    · exact ⟨s, (h.standing id hid).symm.trans hs, hused⟩
    · rw [(h.fresh id s (Nat.not_lt.mp hid) hs).1] at hused
      cases hused

/-! ## Categories -/

theorem donateBases (a : Atlas) (id extension : EntityId) (bases : List BaseEdge) :
    Settles a (a.donateBases id extension bases) := by
  refine .foldl (fun b edge => ?_) _ a
  exact (appendBase b id edge).trans
    (.of_agrees (agrees_modifyClass _ edge.target (by intro c; rfl)).kin)

theorem markArtificial (a : Atlas) (id : EntityId) :
    Settles a (a.modifyEntity id fun e => { e with flags.isArtificial := true }) := by
  have hread (id' : EntityId) := a.standing?_modifyEntity id id'
    (f := fun e => { e with flags.isArtificial := true })
    (g := fun s => { s with isArtificial := true }) (by intro e; rfl)
  refine ⟨⟨fun id' s hs => ?_, fun id' l hl => ?_⟩, fun id' s hs hused => ?_⟩
  · rw [hread, hs]
    split
    · exact ⟨_, rfl, rfl, rfl, fun _ => rfl⟩
    · exact ⟨s, rfl, rfl, rfl, fun hs => hs⟩
  · refine ⟨l, ?_, List.prefix_rfl⟩
    rw [← hl]
    refine a.lineage?_modifyEntity id id' ?_
    intro e
    rfl
  · rw [hread] at hs
    split at hs
    · obtain ⟨s', hs', rfl⟩ := Option.map_eq_some_iff.mp hs
      exact ⟨s', hs', hused⟩
    · exact ⟨s, hs, hused⟩

end Settles

theorem SharesSkeleton.adoptName (id category : EntityId) (isDetail : Bool)
    (state : Atlas × Roster × List View) (entry : String × List View) :
    state.1.SharesSkeleton (Atlas.adoptName id category isDetail state entry).1 := by
  have hrelate (a : Atlas) (own theirs : List View) :
      a.SharesSkeleton (a.relate category own theirs) := by
    unfold relate
    split
    · exact (modifyMember a _ _).trans (modifyMember _ _ _)
    · exact .refl a
  have hadopt (a : Atlas) (v : View) : a.SharesSkeleton (a.adoptView id category isDetail v).1 := by
    unfold adoptView
    split
    · exact .refl a
    · exact (addMember a _ _).trans (modifyMember _ _ _)
  unfold Atlas.adoptName
  dsimp only
  split
  · exact hrelate _ _ _
  · refine foldl_kept (P := fun s : Atlas × List View => state.1.SharesSkeleton s.1) ?_ _ ?_
    · intro s v hs
      exact hs.trans (hadopt s.1 v)
    · exact .refl _

theorem SharesSkeleton.adopt (a : Atlas) (id category : EntityId) (c : ClassBody) (isLocal : Bool) :
    (a.withCategory id category c).SharesSkeleton (a.adopt id category c isLocal).value := by
  unfold Atlas.adopt
  generalize a.withCategory id category c = b
  dsimp only
  split
  · exact .refl b
  · have hbare := modifyClass b id (f := fun c => { c with roster := .empty }) fun c => rfl
    refine (hbare.trans ?_).trans (.foldlM (fun b view => fileInClass b _ _ _ _) _ _)
    refine SharesSkeleton.trans ?_ (modifyClass _ id (by intro c; rfl))
    refine foldl_kept (P := fun s : Atlas × Roster × List View => SharesSkeleton _ s.1) ?_ _ ?_
    · intro s entry hs
      exact hs.trans (adoptName _ _ _ _ _)
    · exact .refl _

theorem withCategory_kept {P : Atlas → Prop} (hP : KeptByLinks P)
    (hflag : ∀ b id, P b → P (b.modifyEntity id fun e => { e with flags.isArtificial := true }))
    (id category : EntityId) (c : ClassBody) (ha : P a) : P (a.withCategory id category c) := by
  have hmarked := hP a category (fun c => { c with categoryOf := some id })
    (fun _ => ⟨rfl, .inr ⟨rfl, rfl⟩⟩) ha
  unfold withCategory
  split
  · refine foldl_kept (fun b edge hb => ?_) _ (hflag _ category hmarked)
    refine hP _ edge.target _ (fun c => ⟨rfl, .inr ⟨rfl, ?_⟩⟩)
      (hP b id _ (fun c => c.relinks_append edge) hb)
    simp [ClassBody.isLinked]
  · exact hmarked

theorem mergeCategory_eq_or (h : a.mergeCategory id category = .ok merged) : merged.value = a ∨
      ∃ target c isLocal, a.requireClass id = .ok target ∧ a.requireClass category = .ok c ∧
        merged.value = (a.adopt id category c isLocal).value := by
  obtain ⟨target, htarget, h⟩ := Except.bind_eq_ok h
  obtain ⟨c, hc, h⟩ := Except.bind_eq_ok h
  obtain ⟨e, -, h⟩ := Except.bind_eq_ok h
  split at h
  · cases h
    exact .inl rfl
  · cases h
    exact .inr ⟨target, c, e.isLocal, htarget, hc, rfl⟩

theorem mergeCategory_kept {P : Atlas → Prop} (hP : KeptByLinks P)
    (hflag : ∀ b id, P b → P (b.modifyEntity id fun e => { e with flags.isArtificial := true }))
    (hshares : ∀ {b c}, SharesSkeleton b c → P b → P c) {category : EntityId} {merged : Noted Atlas}
    (h : a.mergeCategory id category = .ok merged) (ha : P a) : P merged.value := by
  rcases mergeCategory_eq_or h with heq | ⟨_, c, isLocal, -, -, heq⟩ <;> rw [heq]
  · exact ha
  · exact hshares (SharesSkeleton.adopt a id category c isLocal)
      (withCategory_kept hP hflag id category c ha)

theorem Settles.adopt (a : Atlas) (id category : EntityId) (c : ClassBody) (isLocal : Bool) :
    Settles a (a.adopt id category c isLocal).value := by
  refine Settles.trans ?_ (.of_agrees (SharesSkeleton.adopt a id category c isLocal).ties.kin)
  have hmarked : Settles a (a.modifyClass category fun c => { c with categoryOf := some id }) :=
    .of_agrees (a.agrees_modifyClass category (by intro c; rfl)).kin
  unfold withCategory
  split
  · exact (hmarked.trans (markArtificial _ category)).trans (donateBases _ id category c.bases)
  · exact hmarked

theorem Settles.mergeCategory (h : a.mergeCategory id category = .ok merged) :
    Settles a merged.value := by
  rcases mergeCategory_eq_or h with heq | ⟨_, c, isLocal, -, -, heq⟩ <;> rw [heq]
  · exact .refl a
  · exact .adopt a id category c isLocal

end Atlas

end SymbolAtlas
