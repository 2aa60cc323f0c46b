import SymbolAtlas.Proofs.Atlas.Forest

/-!
# Nested instances

Making an instance of a template makes instances of the templates among its bases as well, those
among their bases, and so on up to a bound. Listing the instances that are added, with the number of
others that were being made around each of them, says which of them get bases: all but those at the
bound. An edge of a template may lead to an instance that is just being made, and is passed over only
if that is the very instance which is to get it.
-/

set_option autoImplicit false

namespace SymbolAtlas

/-- An instance that is added on the way. -/
structure Offspring where
  id : EntityId
  generic : EntityId
  /-- The template arguments in canonical spacing. -/
  key : String
  /-- How many instances were being made around it. -/
  depth : Nat
deriving DecidableEq, Repr

namespace Atlas

variable {edge : BaseEdge} {edges : List BaseEdge} {spec : String}

/-- The instance of a template with arguments in canonical spacing, if there is one. -/
def instance? (a : Atlas) (generic : EntityId) (key : String) : Option EntityId :=
  (a.class? generic).bind (·.instances.get? key)

/-! ## Who is added -/

/-- The instance that is added if there is none, followed by those that `more` lists. -/
def offspringWith (more : Atlas → (id generic : EntityId) → String → List Offspring) (depth : Nat)
    (a : Atlas) (template : EntityId) (spec : String) : List Offspring :=
  let generic := a.genericOf template
  let key := Text.normalized spec
  match a.instance? generic key, a.entity? generic with
  | none, some master =>
    let (a, id) := (a.addInstance generic master key).value
    { id, generic, key, depth } :: more a id generic key
  | _, _ => []

/-- The instances that are added while an instance gets its bases. -/
def offspringOfBases (offspring : Atlas → EntityId → String → List Offspring)
    (nested : Atlas → EntityId → String → Noted (Atlas × EntityId × Bool)) (i : Instantiation)
    (instanceId : EntityId) : Atlas → List BaseEdge → List Offspring
  | _, [] => []
  | a, edge :: edges =>
    (if a.isNested i edge then offspring a edge.target (i.apply edge.templateSpec) else [])
      ++ offspringOfBases offspring nested i instanceId
        (instantiateBase nested i instanceId a edge).value edges

/-- The instances that are added when an instance is asked for within `depth` others, and nesting
may go as many levels deeper as are given; in the order in which they are added. -/
def offspringWithin : (levels depth : Nat) → Atlas → EntityId → String → List Offspring
  | 0, depth => offspringWith (fun _ _ _ _ => []) depth
  | levels + 1, depth => offspringWith (fun a id generic key =>
      offspringOfBases (offspringWithin levels (depth + 1)) (instanceWithin levels)
        (a.instantiation generic key) id a (a.bases generic)) depth

/-! ## What they get -/

/-- The instance in `b` of the base of an edge, for the arguments that the edge gives it. -/
def baseInstance? (a b : Atlas) (i : Instantiation) (edge : BaseEdge) : Option EntityId :=
  b.instance? (a.genericOf edge.target) (Text.normalized (i.apply edge.templateSpec))

/-- The edge of an instance that is made from an edge of its template in `a`, when `b` holds the
instances. -/
def reflected (a b : Atlas) (i : Instantiation) (edge : BaseEdge) : BaseEdge :=
  { edge with
    templateSpec := i.apply edge.templateSpec
    target :=
      if a.isNested i edge then (a.baseInstance? b i edge).getD edge.target else edge.target }

/-- The base of an edge has its instance in `b`, if it is a template. -/
def IsFound (a b : Atlas) (i : Instantiation) (edge : BaseEdge) : Prop :=
  a.isNested i edge = true → (a.baseInstance? b i edge).isSome = true

/-- The edges of an instance in `b` are made from the given ones, in their order, each leading to the
base or to its instance. An edge that would lead from the instance to itself is left out. -/
structure IsReflected (a b : Atlas) (o : Offspring) (edges : List BaseEdge) : Prop where
  found : ∀ edge ∈ edges, a.IsFound b (a.instantiation o.generic o.key) edge
  bases : b.bases o.id = (edges.map
    (a.reflected b (a.instantiation o.generic o.key))).filter (·.target ≠ o.id)

/-- What has become in `b` of an instance that was added since `a`: it has the bases of its template
unless it lies at the bound, where it has none. -/
structure Arises (a b : Atlas) (limit : Nat) (o : Offspring) : Prop where
  generic : a.HoldsClass o.generic
  isInstance : b.instance? o.generic o.key = some o.id
  reflected : o.depth < limit → a.IsReflected b o (a.bases o.generic)
  bare : o.depth = limit → b.bases o.id = []

/-- The instances that were added on the way from `a` to `b`, from the slot `first` on. -/
structure Nests (a b : Atlas) (first least limit : Nat) (offspring : List Offspring) : Prop where
  spawns : Spawns a b
  changes : Changes false a b
  start : a.entities.size ≤ first
  size : b.entities.size = first + offspring.length
  ids : offspring.map (·.id) = (List.range' first offspring.length).map .ofSlot
  depth : ∀ o ∈ offspring, least ≤ o.depth ∧ o.depth ≤ limit
  arises : ∀ o ∈ offspring, a.Arises b limit o

/-! ## Instances that stay -/

section Mono

variable {a b c : Atlas} {generic id : EntityId} {key : String} {o : Offspring}

theorem instance?_eq_some_iff : a.instance? generic key = some id ↔ a.IsInstance generic key id := by
  exact Option.bind_eq_some_iff

theorem Spawns.instance?_eq (h : Spawns a b) (hid : a.instance? generic key = some id) :
    b.instance? generic key = some id :=
  instance?_eq_some_iff.mpr (h.isInstance (instance?_eq_some_iff.mp hid))

theorem instance?_linkBase (a : Atlas) (child : EntityId) (edge : BaseEdge) (generic : EntityId)
    (key : String) :
    (a.linkBase child edge).value.instance? generic key = a.instance? generic key := by
  apply Option.ext
  intro id
  rw [instance?_eq_some_iff, instance?_eq_some_iff, isInstance_linkBase]

theorem HoldsClass.exists_lineage (h : a.HoldsClass id) : ∃ l, a.lineage? id = some l := by
  obtain ⟨-, r, hr⟩ := holdsClass_iff.mp h
  obtain ⟨c, hc, -⟩ := Option.map_eq_some_iff.mp hr
  exact ⟨c.lineage, by rw [lineage?_eq_map, hc]; rfl⟩

theorem Spawns.isNested_eq (h : Spawns a b) {edge : BaseEdge} (htarget : a.HoldsClass edge.target)
    (i : Instantiation) : b.isNested i edge = a.isNested i edge := by
  obtain ⟨l, hl⟩ := htarget.exists_lineage
  obtain ⟨l', hl', hlists⟩ := h.exists_lineage hl
  unfold isNested
  rw [any_isTemplate_eq, any_isTemplate_eq, hl, hl', Option.any_some, Option.any_some,
    hlists.formals]

theorem reflected_eq_of_found {i : Instantiation} {edge : BaseEdge}
    (hfound : a.IsFound b i edge)
    (hinstances : ∀ generic key id, b.instance? generic key = some id →
      c.instance? generic key = some id) : a.reflected c i edge = a.reflected b i edge := by
  unfold reflected
  by_cases hnested : a.isNested i edge = true
  · obtain ⟨id, hid⟩ := Option.isSome_iff_exists.mp (hfound hnested)
    rw [hid, show a.baseInstance? c i edge = some id from hinstances _ _ _ hid]
  · rw [if_neg hnested, if_neg hnested]

theorem IsReflected.mono (h : a.IsReflected b o edges)
    (hinstances : ∀ generic key id, b.instance? generic key = some id →
      c.instance? generic key = some id)
    (hbases : c.bases o.id = b.bases o.id) : a.IsReflected c o edges where
  found edge hedge hnested := by
    obtain ⟨id, hid⟩ := Option.isSome_iff_exists.mp (h.found edge hedge hnested)
    rw [show a.baseInstance? c _ edge = some id from hinstances _ _ _ hid]
    rfl
  bases := by
    rw [hbases, h.bases, List.map_congr_left fun edge hedge =>
      reflected_eq_of_found (h.found edge hedge) hinstances]

theorem Arises.mono {limit : Nat} (h : a.Arises b limit o)
    (hinstances : ∀ generic key id, b.instance? generic key = some id →
      c.instance? generic key = some id) (hbases : c.bases o.id = b.bases o.id) :
    a.Arises c limit o where
  generic := h.generic
  isInstance := hinstances _ _ _ h.isInstance
  reflected hdepth := (h.reflected hdepth).mono hinstances hbases
  bare hdepth := hbases.trans (h.bare hdepth)

theorem IsReflected.linkBase (h : a.IsReflected b o edges) (hid : b.HoldsClass o.id)
    (hfound : a.IsFound b (a.instantiation o.generic o.key) edge) :
    a.IsReflected (b.linkBase o.id (a.reflected b (a.instantiation o.generic o.key) edge)).value o
      (edges ++ [edge]) := by
  have hread := b.instance?_linkBase o.id (a.reflected b (a.instantiation o.generic o.key) edge)
  have hall : ∀ edge' ∈ edges ++ [edge],
      a.IsFound b (a.instantiation o.generic o.key) edge' := by
    intro edge' hedge'
    rcases List.mem_append.mp hedge' with hedge' | hedge'
    · exact h.found edge' hedge'
    · rw [List.mem_singleton.mp hedge']
      exact hfound
  refine ⟨fun edge' hedge' hnested => ?_, ?_⟩
  · rw [baseInstance?, hread]
    exact hall edge' hedge' hnested
  · rw [List.map_congr_left fun edge' hedge' => reflected_eq_of_found (hall edge' hedge')
      fun generic key id hid => (hread generic key).trans hid,
      List.map_append, List.filter_append, ← h.bases]
    by_cases hself : (a.reflected b (a.instantiation o.generic o.key) edge).target = o.id
    · rw [b.linkBase_self hself]
      simp [hself]
    · obtain ⟨l, hl⟩ := hid.exists_lineage
      rw [b.bases_linkBase hself, if_pos ⟨by rw [hl]; rfl, rfl⟩]
      simp [hself]

end Mono

/-! ## The list of those that were added -/

namespace Nests

variable {a b c : Atlas} {first least limit : Nat} {offspring more : List Offspring}

theorem nil (hspawns : Spawns a b) (hchanges : Changes false a b) (least limit : Nat) :
    Nests a b b.entities.size least limit [] :=
  ⟨hspawns, hchanges, hspawns.size, rfl, rfl, nofun, nofun⟩

section

variable (h : Nests a b first least limit offspring)

include h

theorem slot_mem {o : Offspring} (ho : o ∈ offspring) :
    first ≤ o.id.slot ∧ o.id.slot < b.entities.size := by
  have hid : o.id ∈ (List.range' first offspring.length).map EntityId.ofSlot :=
    h.ids ▸ List.mem_map_of_mem ho
  obtain ⟨slot, hslot, heq⟩ := List.mem_map.mp hid
  obtain ⟨hle, hlt⟩ := List.mem_range'_1.mp hslot
  rw [← heq, h.size]
  exact ⟨hle, hlt⟩

theorem append (hspawns : Spawns b c) (h' : Nests a c b.entities.size least limit more) :
    Nests a c first least limit (offspring ++ more) where
  spawns := h'.spawns
  changes := h'.changes
  start := h.start
  size := by rw [h'.size, h.size, List.length_append, Nat.add_assoc]
  ids := by
    rw [List.map_append, h.ids, h'.ids, h.size, ← List.map_append, List.length_append,
      ← List.range'_append_1]
  depth o ho := (List.mem_append.mp ho).elim (h.depth o) (h'.depth o)
  arises o ho := by
    rcases List.mem_append.mp ho with ho | ho
    · exact (h.arises o ho).mono (fun _ _ _ => hspawns.instance?_eq)
        (hspawns.bases_eq (h.slot_mem ho).2)
    · exact h'.arises o ho

theorem linkBase {child : EntityId} (hstart : a.entities.size ≤ child.slot)
    (hfirst : child.slot < first) (hchild : b.HoldsClass child)
    (htarget : b.HoldsClass edge.target) :
    Nests a (b.linkBase child edge).value first least limit offspring where
  spawns := h.spawns.linkBase hstart edge
  changes := h.changes.trans (changes_linkBase hchild htarget)
  start := h.start
  size := (b.size_linkBase child edge).trans h.size
  ids := h.ids
  depth := h.depth
  arises o ho := by
    refine (h.arises o ho).mono (fun generic key id hid => ?_) ?_
    · rw [instance?_linkBase]
      exact hid
    · by_cases hself : edge.target = child
      · rw [b.linkBase_self hself]
      · have hslot := (h.slot_mem ho).1
        rw [b.bases_linkBase hself, if_neg fun hboth => by omega]

end

theorem cons {generic : EntityId} {key : String} {depth : Nat}
    (h : Nests a b (first + 1) (depth + 1) limit offspring) (hstart : a.entities.size ≤ first)
    (hdepth : depth ≤ limit) (harises : a.Arises b limit ⟨.ofSlot first, generic, key, depth⟩) :
    Nests a b first depth limit (⟨.ofSlot first, generic, key, depth⟩ :: offspring) where
  spawns := h.spawns
  changes := h.changes
  start := hstart
  size := by rw [h.size, List.length_cons, Nat.add_right_comm, Nat.add_assoc]
  ids := by
    rw [List.map_cons, h.ids, List.length_cons, List.range'_succ, List.map_cons]
  depth o ho := by
    rcases List.mem_cons.mp ho with rfl | ho
    · exact ⟨Nat.le_refl _, hdepth⟩
    · exact ⟨Nat.le_of_lt (h.depth o ho).1, (h.depth o ho).2⟩
  arises o ho := by
    rcases List.mem_cons.mp ho with rfl | ho
    · exact harises
    · exact h.arises o ho

end Nests

/-! ## An instance that gets its bases -/

/-- What is known of an instance while it gets its bases: `done` are the edges of the template from
which bases were made, and `offspring` the instances that were added for them. -/
structure IsTaking (a b : Atlas) (o : Offspring) (limit : Nat) (done : List BaseEdge)
    (offspring : List Offspring) : Prop where
  nests : Nests a b (o.id.slot + 1) (o.depth + 1) limit offspring
  start : a.entities.size ≤ o.id.slot
  holdsClass : b.HoldsClass o.id
  isInstance : b.instance? o.generic o.key = some o.id
  isReflected : a.IsReflected b o done

/-- What is asked of the search for an instance: it is found or added, and those that are added on
the way are listed. -/
structure Delivers (a b : Atlas) (template : EntityId) (spec : String) (least limit : Nat)
    (offspring : List Offspring) (c : Atlas) (id : EntityId) : Prop where
  nests : Nests a c b.entities.size least limit offspring
  spawns : Spawns b c
  changes : Changes false b c
  holdsClass : c.HoldsClass id
  isInstance : c.instance? (a.genericOf template) (Text.normalized spec) = some id

namespace IsTaking

variable {a b c : Atlas} {o : Offspring} {limit : Nat} {done : List BaseEdge}
  {offspring more : List Offspring}

theorem goOn (h : IsTaking a b o limit done offspring) {template id : EntityId}
    (hmore : Delivers a b template spec (o.depth + 1) limit more c id) :
    IsTaking a c o limit done (offspring ++ more) where
  nests := h.nests.append hmore.spawns hmore.nests
  start := h.start
  holdsClass := hmore.changes.holdsClass h.holdsClass
  isInstance := hmore.spawns.instance?_eq h.isInstance
  isReflected := h.isReflected.mono (fun _ _ _ => hmore.spawns.instance?_eq)
    (hmore.spawns.bases_eq h.holdsClass.holds.slot_lt)

theorem linkBase (h : IsTaking a b o limit done offspring)
    (hfound : a.IsFound b (a.instantiation o.generic o.key) edge)
    (htarget : b.HoldsClass (a.reflected b (a.instantiation o.generic o.key) edge).target) :
    IsTaking a (b.linkBase o.id (a.reflected b (a.instantiation o.generic o.key) edge)).value o limit
      (done ++ [edge]) offspring where
  nests := h.nests.linkBase h.start (Nat.lt_succ_self _) h.holdsClass htarget
  start := h.start
  holdsClass := (changes_linkBase h.holdsClass htarget : Changes false _ _).holdsClass h.holdsClass
  isInstance := (b.instance?_linkBase _ _ _ _).trans h.isInstance
  isReflected := h.isReflected.linkBase h.holdsClass hfound

variable {nested : Atlas → EntityId → String → Noted (Atlas × EntityId × Bool)}
  {listed : Atlas → EntityId → String → List Offspring}

theorem instantiateBase (h : IsTaking a b o limit done offspring) {edge : BaseEdge}
    (hedge : a.HoldsClass edge.target)
    (hnested : ∀ spec, Delivers a b edge.target spec (o.depth + 1) limit (listed b edge.target spec)
      (nested b edge.target spec).value.1 (nested b edge.target spec).value.2.1) :
    IsTaking a (Atlas.instantiateBase nested (a.instantiation o.generic o.key) o.id b edge).value o
      limit (done ++ [edge])
      (offspring ++ if b.isNested (a.instantiation o.generic o.key) edge then
        listed b edge.target ((a.instantiation o.generic o.key).apply edge.templateSpec) else []) := by
  have hsame := h.nests.spawns.isNested_eq hedge (a.instantiation o.generic o.key)
  unfold Atlas.instantiateBase
  dsimp only
  by_cases hnest : b.isNested (a.instantiation o.generic o.key) edge = true
  · rw [if_pos hnest, if_pos hnest, Noted.value_bind]
    have hfound := hnested ((a.instantiation o.generic o.key).apply edge.templateSpec)
    generalize (nested b edge.target _).value = found at hfound
    have hmade : a.reflected found.1 (a.instantiation o.generic o.key) edge =
        { edge with
          target := found.2.1
          templateSpec := (a.instantiation o.generic o.key).apply edge.templateSpec } := by
      unfold reflected baseInstance?
      rw [if_pos (hsame ▸ hnest), hfound.isInstance, Option.getD_some]
    rw [← hmade]
    refine (h.goOn hfound).linkBase (fun _ => ?_) ?_
    · rw [baseInstance?, hfound.isInstance]
      rfl
    · rw [hmade]
      exact hfound.holdsClass
  · rw [if_neg hnest, if_neg hnest, List.append_nil]
    rw [hsame] at hnest
    have hmade : a.reflected b (a.instantiation o.generic o.key) edge =
        { edge with
          templateSpec := (a.instantiation o.generic o.key).apply edge.templateSpec } := by
      unfold reflected
      rw [if_neg hnest]
    rw [← hmade]
    refine h.linkBase (fun hnested => absurd hnested hnest) ?_
    rw [hmade]
    exact h.nests.changes.holdsClass hedge

theorem instantiateBases (h : IsTaking a b o limit done offspring) {edges : List BaseEdge}
    (hedges : ∀ edge ∈ edges, a.HoldsClass edge.target)
    (hnested : ∀ (b : Atlas) (template : EntityId) (spec : String), Spawns a b → Changes false a b →
      a.HoldsClass template → Delivers a b template spec (o.depth + 1) limit (listed b template spec)
        (nested b template spec).value.1 (nested b template spec).value.2.1) :
    IsTaking a
      (edges.foldlM (Atlas.instantiateBase nested (a.instantiation o.generic o.key) o.id) b).value
      o limit (done ++ edges)
      (offspring ++ offspringOfBases listed nested (a.instantiation o.generic o.key) o.id b
        edges) := by
  induction edges generalizing b done offspring with
  | nil =>
    rw [offspringOfBases, List.append_nil, List.append_nil]
    exact h
  | cons edge edges ih =>
    have hedge := hedges edge List.mem_cons_self
    have hnext := h.instantiateBase hedge fun spec =>
      hnested b edge.target spec h.nests.spawns h.nests.changes hedge
    rw [List.foldlM_cons, Noted.value_bind, List.append_cons, offspringOfBases, ← List.append_assoc]
    exact ih hnext fun edge' hedge' => hedges edge' (List.mem_cons_of_mem _ hedge')

end IsTaking

/-! ## The search for an instance -/

section Search

variable {a b : Atlas} {template : EntityId}

theorem isTaking_addInstance (ha : a.IsWired) (hspawns : Spawns a b) (hchanges : Changes false a b)
    (ht : a.HoldsClass template) {master : Entity}
    (hmaster : b.entity? (a.genericOf template) = some master)
    (hfree : b.instance? (a.genericOf template) (Text.normalized spec) = none) (depth limit : Nat) :
    IsTaking a (b.addInstance (a.genericOf template) master (Text.normalized spec)).value.1
      ⟨.ofSlot b.entities.size, a.genericOf template, Text.normalized spec, depth⟩ limit [] [] := by
  have hwired := hchanges.isWired ha
  have hgeneric := hchanges.holdsClass (ha.holdsClass_genericOf ht)
  have hsame := hchanges.genericOf_eq ht
  have hkind := hwired.isNamespaceLike_eq_false hgeneric hmaster
  obtain ⟨l, hl⟩ := hgeneric.exists_lineage
  have hleads : b.LeadsTo false
      (b.addInstance (a.genericOf template) master (Text.normalized spec)).value.1
      (.ofSlot b.entities.size) := by
    rw [← hsame] at hmaster hfree ⊢
    exact leadsTo_addInstance hwired (hchanges.holdsClass ht) hmaster
      (Text.normalized_normalized spec) hfree
  have hadded : Spawns b
      (b.addInstance (a.genericOf template) master (Text.normalized spec)).value.1 := by
    refine .addInstance hmaster ?_
    rw [lineage?_eq_map, Option.bind_map]
    exact hfree
  have hsize : (b.addInstance (a.genericOf template) master
      (Text.normalized spec)).value.1.entities.size = b.entities.size + 1 :=
    (b.agrees_addInstance _ _ _).size.trans (b.size_withInstance _ _ _)
  refine ⟨?_, hspawns.size, hleads.holdsClass,
    instance?_eq_some_iff.mpr (isInstance_addInstance _ hl hkind), nofun, ?_⟩
  · rw [EntityId.slot_ofSlot, ← hsize]
    exact .nil (hspawns.trans hadded) (hchanges.trans hleads.changes) _ _
  · rw [bases_eq_lineage?, lineage?_addInstance _ hl hkind, EntityId.slot_ofSlot, if_pos rfl]
    rfl

theorem nests_instanceWith (ha : a.IsWired) (hspawns : Spawns a b) (hchanges : Changes false a b)
    (ht : a.HoldsClass template) (spec : String) {depth limit : Nat}
    {finish : Atlas → (instanceId generic : EntityId) → String → Noted Atlas}
    {more : Atlas → (id generic : EntityId) → String → List Offspring}
    (hfinish : ∀ (c : Atlas) (generic : EntityId) (key : String), a.HoldsClass generic →
      IsTaking a c ⟨.ofSlot b.entities.size, generic, key, depth⟩ limit [] [] →
      Nests a (finish c (.ofSlot b.entities.size) generic key).value b.entities.size depth limit
        (⟨.ofSlot b.entities.size, generic, key, depth⟩ ::
          more c (.ofSlot b.entities.size) generic key)) :
    Nests a (instanceWith finish b template spec).value.1 b.entities.size depth limit
        (offspringWith more depth b template spec) ∧
      (instanceWith finish b template spec).value.1.instance? (a.genericOf template)
        (Text.normalized spec) = some (instanceWith finish b template spec).value.2.1 := by
  have hgeneric := ha.holdsClass_genericOf ht
  obtain ⟨master, hmaster⟩ := (hchanges.holdsClass hgeneric).holds.exists_entity
  unfold instanceWith offspringWith
  dsimp only
  rw [hchanges.genericOf_eq ht, hmaster, ← instance?]
  cases hfree : b.instance? (a.genericOf template) (Text.normalized spec) with
  | some id => exact ⟨.nil hspawns hchanges depth limit, hfree⟩
  | none =>
    have hmade := hfinish _ _ _ hgeneric
      (isTaking_addInstance ha hspawns hchanges ht hmaster hfree depth limit)
    exact ⟨hmade, (hmade.arises _ List.mem_cons_self).isInstance⟩

theorem Delivers.of_nests (ha : a.IsWired) (hchanges : Changes false a b) (ht : a.HoldsClass template)
    {levels least limit : Nat} {spec : String} {offspring : List Offspring}
    (h : Nests a (instanceWithin levels b template spec).value.1 b.entities.size least limit
        offspring ∧
      (instanceWithin levels b template spec).value.1.instance? (a.genericOf template)
        (Text.normalized spec) = some (instanceWithin levels b template spec).value.2.1) :
    Delivers a b template spec least limit offspring (instanceWithin levels b template spec).value.1
      (instanceWithin levels b template spec).value.2.1 := by
  obtain ⟨hmade, hid⟩ := (instancesKeep_changes false (hchanges.isWired ha)).instanceWithin levels
    .refl (hchanges.holdsClass ht) spec
  refine ⟨h.1, ?_, hmade.holds, hid, h.2⟩
  exact ((Spawns.instancesKeep b).instanceWithin levels (.refl b) trivial spec).1.holds

/-- All instances that one request adds, each with the bases of its template. -/
theorem delivers_instanceWithin (ha : a.IsWired) (levels : Nat) {depth limit : Nat}
    (hlimit : depth + levels = limit) (hspawns : Spawns a b) (hchanges : Changes false a b)
    (ht : a.HoldsClass template) (spec : String) :
    Delivers a b template spec depth limit (offspringWithin levels depth b template spec)
      (instanceWithin levels b template spec).value.1
      (instanceWithin levels b template spec).value.2.1 := by
  induction levels generalizing b depth template spec with
  | zero =>
    refine .of_nests ha hchanges ht (nests_instanceWith ha hspawns hchanges ht spec ?_)
    intro c generic key hgeneric h
    -- At the bound the instance is left without bases.
    refine h.nests.cons hspawns.size (Nat.le_of_eq hlimit) ⟨hgeneric, h.isInstance, fun hdepth => ?_,
      fun _ => h.isReflected.bases⟩
    exact absurd hlimit (Nat.ne_of_lt hdepth)
  | succ levels ih =>
    refine .of_nests ha hchanges ht (nests_instanceWith ha hspawns hchanges ht spec ?_)
    intro c generic key hgeneric h
    obtain ⟨l, hl⟩ := hgeneric.exists_lineage
    have hdeeper : depth + 1 + levels = limit := by omega
    have hlt : depth < limit := by omega
    have hmade := h.instantiateBases (fun edge (hedge : edge ∈ a.bases generic) =>
      ha.holdsClass_of_mem_bases hedge)
      fun b template spec hspawns hchanges ht => ih hdeeper hspawns hchanges ht spec
    unfold instantiateBases
    rw [h.nests.spawns.bases_eq hgeneric.holds.slot_lt, h.nests.spawns.instantiation_eq hl]
    exact hmade.nests.cons hspawns.size (Nat.le_of_lt hlt) ⟨hgeneric, hmade.isInstance,
      fun _ => hmade.isReflected, fun hdepth => absurd hdepth (Nat.ne_of_lt hlt)⟩

end Search

/-! ## Instances of a template -/

/-- Whatever has been done, asking for an instance of a class answers. The instances that are added
are listed, and lie within the bound. Those below it have, in order, one edge for each edge of their
template that would not lead them to themselves, and those at the bound have none. No class that was
there gets other bases. -/
theorem instances_within_bound (options : Options) {operations : List Operation} {a : Atlas}
    (ha : Operation.performAll (.empty options) operations = a) (template : Handle)
    (htemplate : (a.class? template.1).isSome = true) (spec : String) :
    let limit := instantiationLimit options
    let offspring := offspringWithin limit 0 a template.1 spec
    ∃ made, a.instantiate template.1 spec = .ok made ∧
      made.value.1.instance? (a.genericOf template.1) (Text.normalized spec) =
        some made.value.2.1 ∧
      made.value.1.entities.size = a.entities.size + offspring.length ∧
      offspring.map (·.id) = (List.range' a.entities.size offspring.length).map .ofSlot ∧
      (∀ o ∈ offspring, o.depth ≤ limit ∧ a.Arises made.value.1 limit o) ∧
      ∀ id, id.slot < a.entities.size → made.value.1.bases id = a.bases id := by
  intro limit offspring
  have hchanges : Changes false (.empty options) a :=
    ha ▸ Operation.changes_performAll operations (.empty options) nofun
  have hwired := hchanges.isWired (.empty options)
  obtain ⟨hclass, c, hc⟩ := a.holdsClass_and_class? template.1 template.2 htemplate
  have hlimit : instantiationLimit a.options = limit := by
    rw [hchanges.options]
    rfl
  have hmade := delivers_instanceWithin hwired limit (Nat.zero_add limit) (.refl a) .refl hclass spec
  refine ⟨_, instantiate_eq hclass spec, ?_⟩
  rw [hlimit]
  exact ⟨hmade.isInstance, hmade.nests.size, hmade.nests.ids,
    fun o ho => ⟨(hmade.nests.depth o ho).2, hmade.nests.arises o ho⟩,
    fun id hid => hmade.spawns.bases_eq hid⟩

/-- Two templates, each derived from the other one with a pointer to its own argument. -/
def entwined : List Operation :=
  [.register "A" .classKind {}, .register "B" .classKind {},
    .setFormals ⟨1⟩ ["class T"], .setFormals ⟨2⟩ ["class U"],
    .insertBase 1 2 { target := ⟨2⟩, usedName := "B", templateSpec := "<T*>" },
    .insertBase 2 1 { target := ⟨1⟩, usedName := "A", templateSpec := "<U*>" }]

/-- With two levels of inheritance three instances are added. The second one has the base of its
template, and the last one has none. -/
theorem instances_within_bound_entwined :
    let options : Options := { maxInheritanceDepth := 2 }
    let a := Operation.performAll (.empty options) entwined
    let template : Handle := 1
    let middle : Offspring := ⟨⟨4⟩, ⟨2⟩, "<int*>", 1⟩
    (a.class? template.1).isSome = true ∧
      offspringWithin (instantiationLimit options) 0 a template.1 "<int>" =
        [⟨⟨3⟩, ⟨1⟩, "<int>", 0⟩, middle, ⟨⟨5⟩, ⟨1⟩, "<int**>", 2⟩] ∧
      ∃ made, a.instantiate template.1 "<int>" = .ok made ∧
        made.value.1.instance? (a.genericOf template.1) (Text.normalized "<int>") =
          some made.value.2.1 ∧
        made.value.1.entities.size = 5 ∧ a.IsReflected made.value.1 middle (a.bases ⟨2⟩) ∧
        made.value.1.bases ⟨5⟩ = [] ∧ made.value.1.bases ⟨1⟩ = a.bases ⟨1⟩ := by
  intro options a template middle
  have hclass : (a.class? template.1).isSome = true := by decide +kernel
  have hoffspring : offspringWithin (instantiationLimit options) 0 a template.1 "<int>" =
      [⟨⟨3⟩, ⟨1⟩, "<int>", 0⟩, middle, ⟨⟨5⟩, ⟨1⟩, "<int**>", 2⟩] := by decide +kernel
  have hsize : a.entities.size = 2 := by decide +kernel
  obtain ⟨made, hmade, hinstance, hgrown, -, harises, hbases⟩ :=
    instances_within_bound options rfl template hclass "<int>"
  rw [hoffspring] at hgrown harises
  refine ⟨hclass, hoffspring, made, hmade, hinstance, hgrown.trans (by rw [hsize]; rfl), ?_, ?_, ?_⟩
  · exact (harises middle (by simp)).2.reflected (by decide)
  · exact (harises ⟨⟨5⟩, ⟨1⟩, "<int**>", 2⟩ (by simp)).2.bare rfl
  · exact hbases ⟨1⟩ (by decide)

/-- A template is derived from one of its instances, which has parameters of its own. -/
def looped : List Operation :=
  [.register "A" .classKind {}, .setFormals ⟨1⟩ ["class T"], .instantiate 1 "<int>",
    .setFormals ⟨2⟩ ["class U"],
    .insertBase 1 2 { target := ⟨2⟩, usedName := "A", templateSpec := "<T>" }]

/-- An instance whose base would be an instance of its own template with the same arguments has no
base, though the template has one and no class is derived from itself. -/
theorem bases_looped :
    let a := Operation.performAll (.empty {}) looped
    (∀ slot < a.entities.size, ∀ edge ∈ a.bases (.ofSlot slot), edge.target ≠ .ofSlot slot) ∧
      (a.bases ⟨1⟩).length = 1 ∧
      ∃ made, a.instantiate ⟨1⟩ "<char>" = .ok made ∧ made.value.2 = (⟨3⟩, true) ∧
        made.value.1.bases ⟨3⟩ = [] := by
  refine ⟨by decide +kernel, by decide +kernel, _, rfl, by decide +kernel, by decide +kernel⟩

end Atlas

end SymbolAtlas
