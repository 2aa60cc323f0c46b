import SymbolAtlas.Proofs.Atlas.Nesting
import SymbolAtlas.Proofs.Build.Settling
import SymbolAtlas.Proofs.Build.Wiring

/-!
# Instances in a build

Bases that are instances are linked one after the other, in the order in which the templates are
declared. An instance that is made before its template has all its bases lacks the rest of them, and
these are instances themselves.
-/

set_option autoImplicit false

namespace SymbolAtlas

variable {a₀ : Atlas} {spec : String} {l : Lineage} {offspring : List Offspring} {o : Offspring}
  {progress : Build.Progress}

open Atlas

variable {admits : EntityKind → Prop}

namespace Atlas

variable {a b : Atlas} {template generic id : EntityId} {key : String} {i : Instantiation}

/-! ## Nesting that is not given up -/

section Shallow

variable {P : Offspring → Prop}

theorem forall_mem_offspringWith {depth : Nat}
    {finish : Atlas → (instanceId generic : EntityId) → String → Noted Atlas}
    {more : Atlas → (id generic : EntityId) → String → List Offspring}
    (hmore : ∀ b id generic key, (finish b id generic key).IsShallow →
      P ⟨id, generic, key, depth⟩ ∧ ∀ o ∈ more b id generic key, P o)
    (h : (instanceWith finish a template spec).IsShallow) :
    ∀ o ∈ offspringWith more depth a template spec, P o := by
  unfold instanceWith at h
  unfold offspringWith
  dsimp only at h ⊢
  split
  · next master hfree hmaster =>
    rw [← instance?, hfree, hmaster] at h
    have hfinished := (Noted.isShallow_bind.mp (Noted.isShallow_bind.mp h).2).1
    exact List.forall_mem_cons.mpr (hmore _ _ _ _ hfinished)
  · exact fun o ho => absurd ho List.not_mem_nil

theorem forall_mem_offspringOfBases {instanceId : EntityId}
    {listed : Atlas → EntityId → String → List Offspring}
    {nested : Atlas → EntityId → String → Noted (Atlas × EntityId × Bool)}
    (hnested : ∀ a template spec, (nested a template spec).IsShallow → ∀ o ∈ listed a template spec, P o)
    {edges : List BaseEdge} (h : (edges.foldlM (instantiateBase nested i instanceId) a).IsShallow) :
    ∀ o ∈ offspringOfBases listed nested i instanceId a edges, P o := by
  induction edges generalizing a with
  | nil => exact fun o ho => absurd ho List.not_mem_nil
  | cons edge edges ih =>
    obtain ⟨hfirst, hrest⟩ := Noted.isShallow_bind.mp h
    unfold instantiateBase at hfirst
    dsimp only at hfirst
    intro o ho
    rcases List.mem_append.mp ho with ho | ho
    · split at ho
      · next hnest =>
        rw [if_pos hnest] at hfirst
        exact hnested _ _ _ (Noted.isShallow_bind.mp hfirst).1 o ho
      · cases ho
    · exact ih hrest o ho

theorem depth_lt_of_isShallow (levels depth : Nat)
    (h : (instanceWithin levels a template spec).IsShallow) :
    ∀ o ∈ offspringWithin levels depth a template spec, o.depth < depth + levels := by
  induction levels generalizing depth a template spec with
  | zero =>
    exact forall_mem_offspringWith (fun b id generic key hgiven =>
      absurd List.mem_cons_self (hgiven _)) h
  | succ levels ih =>
    refine forall_mem_offspringWith (fun b id generic key hbases => ⟨?_, fun o ho => ?_⟩) h
    · exact Nat.lt_add_of_pos_right (Nat.succ_pos levels)
    · have hlt :=
        forall_mem_offspringOfBases (fun a template spec h => ih (depth + 1) h) hbases o ho
      omega

end Shallow

/-! ## Instances that mirror their templates -/

/-- Every instance mirrors its template. -/
structure IsMirrored (a : Atlas) : Prop where
  isWired : a.IsWired
  isForest : a.IsForest
  /-- Instances are no templates. -/
  masters : ∀ id l generic, a.lineage? id = some l → l.templateMaster = some generic → l.formals = []
  apart : ∀ id, a.HoldsClass id → ∀ edge ∈ a.bases id, edge.target ≠ id
  mirrors : ∀ generic key id, 0 < generic.number → a.IsInstance generic key id →
    a.Mirrors generic key id

theorem IsWired.holdsClass_of_isInstance (h : a.IsWired) (hid : a.IsInstance generic key id) :
    a.HoldsClass id := by
  obtain ⟨c, hc, hget⟩ := hid
  have hget : (c.relations.cache .instances).get? key = some id := hget
  exact h.holdsClass_of_listed (family?_of_class? hc) hget

theorem holdsClass_of_lineage? (hpos : 0 < id.number) (hl : a.lineage? id = some l) :
    a.HoldsClass id := by
  obtain ⟨c, hc, -⟩ := Option.map_eq_some_iff.mp ((a.lineage?_eq_map id).symm.trans hl)
  exact holdsClass_iff.mpr ⟨hpos, c.relations, by rw [relations?, hc]; rfl⟩

theorem Spawns.holdsClass (h : Spawns a b) (hid : b.HoldsClass id)
    (hold : id.slot < a.entities.size) : a.HoldsClass id := by
  obtain ⟨l, hl⟩ := hid.exists_lineage
  obtain ⟨l', hl', -⟩ := exists_of_rel_right (h.lineage id hold) hl
  exact holdsClass_of_lineage? hid.1 hl'

theorem IsForest.not_isInstance (h : a.IsForest) (hpos : 0 < generic.number)
    (hself : a.genericOf id = id) : ¬ a.IsInstance generic key id := by
  rintro ⟨c, hc, hget⟩
  obtain ⟨f, hf, hmaster⟩ := h.listed generic _ .instances key id hpos (family?_of_class? hc) hget
  obtain ⟨f', hf', hnone⟩ := h.master id f generic hf hmaster
  rw [genericOf_eq_family?, hf, Option.bind_some, hmaster, Option.getD_some] at hself
  rw [hself, hf] at hf'
  cases hf'
  rw [hnone] at hmaster
  cases hmaster

theorem Changes.isInstance_of_holdsClass {isStrict : Bool} (h : Changes isStrict a b)
    (ha : a.IsForest) (hb : b.IsForest) (hid : a.HoldsClass id) (hpos : 0 < generic.number)
    (hinstance : b.IsInstance generic key id) : a.IsInstance generic key id := by
  obtain ⟨c, hc, hget⟩ := hinstance
  have hg := family?_of_class? hc
  obtain ⟨f', hf', hmaster⟩ := hb.listed generic _ .instances key id hpos hg hget
  obtain ⟨f, hf⟩ := hid.exists_family
  obtain ⟨f'', hf'', hgrows⟩ := h.family_grows hf
  obtain rfl := Option.some.inj (hf'.symm.trans hf'')
  rw [hgrows.templateMaster] at hmaster
  obtain ⟨g, table, key', hg', hget'⟩ := ha.covered id f generic hid.1 hf hmaster
  obtain ⟨g', hg'', hgrows'⟩ := h.family_grows hg'
  obtain rfl := Option.some.inj (hg.symm.trans hg'')
  obtain ⟨rfl, rfl⟩ := hb.once generic _ table .instances key' key id hg
    (hgrows'.cache table key' id hget') hget
  obtain ⟨c', hc', rfl⟩ := exists_class_of_family? hg'
  exact ⟨c', hc', hget'⟩

theorem Nests.exists_offspring {first least limit : Nat} (h : Nests a b first least limit offspring)
    (hid : b.Holds id) (hfirst : first ≤ id.slot) : ∃ o ∈ offspring, o.id = id := by
  refine List.mem_map.mp ?_
  rw [h.ids]
  exact List.mem_map.mpr ⟨id.slot, List.mem_range'_1.mpr ⟨hfirst, h.size ▸ hid.slot_lt⟩,
    EntityId.eq_of_slot (Nat.succ_pos _) hid.1 rfl⟩

theorem instancesKeep_masters : InstancesKeep (fun a => ∀ id l generic,
    a.lineage? id = some l → l.templateMaster = some generic → l.formals = []) fun _ _ => True := by
  refine .of_always (fun a generic master key hmaster ha id l master' hl hl' => ?_)
    fun a child edge ha id l master hl hl' => ?_
  · rw [(a.agrees_addInstance generic master key).kin.lineage?_eq,
      a.lineage?_withInstance master key (slot_lt_of_entity? hmaster)] at hl
    split at hl
    · split at hl
      · cases hl
      · rw [← Option.some.inj hl]
        rfl
    · split at hl
      · obtain ⟨l', hold, rfl⟩ := Option.map_eq_some_iff.mp hl
        exact ha id l' master' hold hl'
      · exact ha id l master' hl hl'
  · rw [lineage?_linkBase_eq_map] at hl
    obtain ⟨l', hold, rfl⟩ := Option.map_eq_some_iff.mp hl
    exact ha id l' master hold hl'

namespace IsMirrored

variable {edge : BaseEdge}

variable (h : a.IsMirrored)

include h

theorem genericOf_eq (hnested : a.isNested i edge = true) :
    a.genericOf edge.target = edge.target := by
  unfold isNested at hnested
  rw [Bool.and_eq_true, any_isTemplate_eq] at hnested
  obtain ⟨l, hl, hformals⟩ := (Option.any_eq_true _ _).mp hnested.2
  rw [genericOf_eq_lineage?, hl, Option.bind_some]
  cases hmaster : l.templateMaster with
  | none => rfl
  | some generic => simp [h.masters _ l generic hl hmaster] at hformals

theorem instantiates_reflected (hb : b.IsForest) (hgeneric : a.HoldsClass o.generic)
    (hnew : a.entities.size ≤ o.id.slot) (ho : b.instance? o.generic o.key = some o.id)
    (hedge : edge ∈ a.bases o.generic) (hfound : a.IsFound b i edge) :
    b.Instantiates i edge (a.reflected b i edge) ∧ (a.reflected b i edge).target ≠ o.id := by
  have htarget := h.isWired.holdsClass_of_mem_bases hedge
  unfold reflected
  by_cases hnested : a.isNested i edge = true
  · obtain ⟨id, hid⟩ := Option.isSome_iff_exists.mp (hfound hnested)
    rw [if_pos hnested, hid]
    rw [baseInstance?, h.genericOf_eq hnested, instance?_eq_some_iff] at hid
    refine ⟨⟨rfl, rfl, rfl, rfl, .inr hid⟩, fun hself => ?_⟩
    -- Only an edge of the template to itself leads to the same instance.
    have hself : id = o.id := hself
    rw [hself] at hid
    have hsame := hb.eq_of_isInstance htarget.1 hgeneric.1 hid (instance?_eq_some_iff.mp ho)
    exact h.apart o.generic hgeneric edge hedge hsame.1
  · rw [if_neg hnested]
    refine ⟨⟨rfl, rfl, rfl, rfl, .inl rfl⟩, fun hself => ?_⟩
    have hslot := htarget.holds.slot_lt
    rw [show edge.target = o.id from hself] at hslot
    omega

theorem mirrors_of_isReflected (hb : b.IsForest) (hspawns : Spawns a b)
    (hgeneric : a.HoldsClass o.generic) (hnew : a.entities.size ≤ o.id.slot)
    (ho : b.instance? o.generic o.key = some o.id)
    (hreflected : a.IsReflected b o (a.bases o.generic)) : b.Mirrors o.generic o.key o.id := by
  have hmade := fun edge hedge =>
    h.instantiates_reflected hb hgeneric hnew ho hedge (hreflected.found edge hedge)
  obtain ⟨l, hl⟩ := hgeneric.exists_lineage
  refine ⟨a.bases o.generic, [], ?_, ?_, by simp⟩
  · rw [List.append_nil, hspawns.bases_eq hgeneric.holds.slot_lt]
  · rw [hspawns.instantiation_eq hl, hreflected.bases, List.filter_eq_self.mpr,
      List.forall₂_map_right_iff, List.forall₂_same]
    · exact fun edge hedge => (hmade edge hedge).1
    · rw [List.forall_mem_map]
      exact fun edge hedge => decide_eq_true (hmade edge hedge).2

theorem nests {least limit : Nat}
    (hnests : Nests a b a.entities.size least limit offspring)
    (hdepth : ∀ o ∈ offspring, o.depth < limit)
    (hmasters : ∀ id l generic, b.lineage? id = some l → l.templateMaster = some generic →
      l.formals = []) : b.IsMirrored := by
  have hwired := hnests.changes.isWired h.isWired
  have hforest := hnests.changes.isForest h.isForest h.isWired
  refine ⟨hwired, hforest, hmasters, fun id hid edge hedge => ?_,
    fun generic key id hpos hlisted => ?_⟩
  · by_cases hold : id.slot < a.entities.size
    · rw [hnests.spawns.bases_eq hold] at hedge
      exact h.apart id (hnests.spawns.holdsClass hid hold) edge hedge
    · obtain ⟨o, ho, rfl⟩ := hnests.exists_offspring hid.holds (Nat.not_lt.mp hold)
      rw [((hnests.arises o ho).reflected (hdepth o ho)).bases] at hedge
      exact of_decide_eq_true (List.mem_filter.mp hedge).2
  · have hid := hwired.holdsClass_of_isInstance hlisted
    by_cases hold : id.slot < a.entities.size
    · have hlisted' := hnests.changes.isInstance_of_holdsClass h.isForest hforest
        (hnests.spawns.holdsClass hid hold) hpos hlisted
      obtain ⟨l, hl, -⟩ := isInstance_iff.mp hlisted'
      refine (h.mirrors generic key id hpos hlisted').mono (fun _ _ _ => hnests.spawns.isInstance)
        (hnests.spawns.instantiation_eq hl key) [] ?_ (by simp) (hnests.spawns.bases_eq hold)
      rw [List.append_nil, hnests.spawns.bases_eq (slot_lt_of_lineage? hl)]
    · obtain ⟨o, ho, rfl⟩ := hnests.exists_offspring hid.holds (Nat.not_lt.mp hold)
      have harises := hnests.arises o ho
      obtain ⟨rfl, rfl⟩ := hforest.eq_of_isInstance hpos harises.generic.1 hlisted
        (instance?_eq_some_iff.mp harises.isInstance)
      exact h.mirrors_of_isReflected hforest hnests.spawns harises.generic (Nat.not_lt.mp hold)
        harises.isInstance (harises.reflected (hdepth o ho))

theorem linkBase {child : EntityId} (hchild : a.HoldsClass child)
    (hself : a.genericOf child = child) (hpos : 0 < generic.number)
    (htarget : a.IsInstance generic key edge.target) :
    (a.linkBase child edge).value.IsMirrored := by
  have hne : edge.target ≠ child := by
    rintro rfl
    exact h.isForest.not_isInstance hpos hself htarget
  have hchanges : Changes false a _ :=
    changes_linkBase hchild (h.isWired.holdsClass_of_isInstance htarget)
  refine ⟨hchanges.isWired h.isWired, hchanges.isForest h.isForest h.isWired,
    (instancesKeep_masters.link h.masters trivial trivial trivial).holds, fun id hid edge' hedge => ?_,
    fun generic' key' id hpos' hid => ?_⟩
  · obtain ⟨l, hl⟩ := hid.exists_lineage
    rw [lineage?_linkBase_eq_map] at hl
    obtain ⟨l', hl', -⟩ := Option.map_eq_some_iff.mp hl
    have hid := holdsClass_of_lineage? hid.1 hl'
    rw [a.bases_linkBase hne] at hedge
    split at hedge
    · next hboth =>
      rcases List.mem_append.mp hedge with hedge | hedge
      · exact h.apart id hid edge' hedge
      · rw [List.mem_singleton.mp hedge, ← hchild.holds.eq_of_slot hid.holds hboth.2]
        exact hne
    · exact h.apart id hid edge' hedge
  · have hid := (a.isInstance_linkBase child edge generic' key' id).mp hid
    refine (h.mirrors generic' key' id hpos' hid).linkBase hne (fun hslot => ?_)
      fun _ => ⟨generic, key, htarget⟩
    have hsame := (h.isWired.holdsClass_of_isInstance hid).holds.eq_of_slot hchild.holds hslot
    exact h.isForest.not_isInstance hpos' hself (hsame ▸ hid)

end IsMirrored

theorem Mirrors.of_agrees (h : a.Mirrors generic key id) (hagrees : Agrees Entity.kin a b) :
    b.Mirrors generic key id := by
  have hlineage := hagrees.lineage?_eq
  have hbases (id : EntityId) : b.bases id = a.bases id := by
    rw [bases_eq_lineage?, hlineage, bases_eq_lineage?]
  refine h.mono (fun generic key id hid => ?_) ?_ [] ?_ (by simp) (hbases id)
  · rw [isInstance_iff, hlineage]
    exact isInstance_iff.mp hid
  · rw [Atlas.instantiation_eq, hlineage, Atlas.instantiation_eq]
  · rw [hbases, List.append_nil]

end Atlas

/-! ## Before the first instance -/

theorem Atlas.IsStubbed.lineage_alone {a : Atlas} (h : a₀.IsStubbed a) (h₀ : a₀.IsUnlinked admits)
    {id : EntityId} (hl : a.lineage? id = some l) :
    l.templateMaster = none ∧ l.instances = .empty := by
  by_cases hid : id.slot < a₀.entities.size
  · obtain ⟨l₀, hl₀, hrebased⟩ := exists_of_rel_right (h.lineage id hid) hl
    obtain ⟨e, he, hlineage⟩ := Option.bind_eq_some_iff.mp hl₀
    have halone := (h₀.entities id e he).lineage l₀ hlineage
    rw [hrebased, halone]
    exact ⟨rfl, rfl⟩
  · obtain ⟨halone, -⟩ := h.stub id (Nat.not_lt.mp hid) (slot_lt_of_lineage? hl)
    obtain rfl := Option.some.inj (halone.symm.trans hl)
    exact ⟨rfl, rfl⟩

theorem Atlas.IsStubbed.kind {a : Atlas} (h : a₀.IsStubbed a) (h₀ : a₀.IsUnlinked admits)
    (hadmits : admits .classKind) {id : EntityId} {s : Standing} (hs : a.standing? id = some s) :
    admits s.kind ∧ (a.lineage? id).isSome = !s.kind.isNamespaceLike := by
  by_cases hid : id.slot < a₀.entities.size
  · rw [h.standing id hid] at hs
    obtain ⟨e, he, rfl⟩ := Option.map_eq_some_iff.mp hs
    refine ⟨(h₀.entities id e he).kind, ?_⟩
    rw [isSome_eq_of_rel (h.lineage id hid), lineage?, he]
    exact (h₀.entities id e he).isClass
  · obtain ⟨halone, s', hs', hplaceholder⟩ :=
      h.stub id (Nat.not_lt.mp hid) (slot_lt_of_standing? hs)
    obtain rfl := Option.some.inj (hs'.symm.trans hs)
    rw [halone, hplaceholder.kind]
    exact ⟨hadmits, rfl⟩

namespace Build

/-! ## One instance after the other -/

/-- What is known while bases that are instances are linked. -/
structure IsInstantiating (admits : EntityKind → Prop) (pending : List PendingInstance) (a : Atlas) :
    Prop where
  isMirrored : a.IsMirrored
  kinds : ∀ id s, a.standing? id = some s → admits s.kind
  pending : ∀ p ∈ pending, a.HoldsClass p.child ∧ a.genericOf p.child = p.child ∧
    a.HoldsClass p.edge.target

variable {admits : EntityKind → Prop} {pending : List PendingInstance}

theorem isInstantiating_start {a : Atlas} (h : a₀.IsStubbed a) (h₀ : a₀.IsUnlinked admits)
    (hadmits : admits .classKind) (hwired : a.IsWired) (hforest : a.IsForest)
    (hpending : ∀ p ∈ pending, a.HoldsClass p.child ∧ a.HoldsClass p.edge.target) :
    IsInstantiating admits pending a := by
  refine ⟨⟨hwired, hforest, fun id l generic hl hmaster => ?_, fun id hid edge hedge heq => ?_,
    fun generic key id hpos hlisted => ?_⟩, fun id s hs => (h.kind h₀ hadmits hs).1, fun p hp => ?_⟩
  · rw [(h.lineage_alone h₀ hl).1] at hmaster
    cases hmaster
  · exact h.leadsOn id edge hedge (heq ▸ rfl)
  · obtain ⟨l, hl, hget⟩ := isInstance_iff.mp hlisted
    rw [(h.lineage_alone h₀ hl).2] at hget
    cases hget
  · obtain ⟨hchild, htarget⟩ := hpending p hp
    obtain ⟨l, hl⟩ := hchild.exists_lineage
    refine ⟨hchild, ?_, htarget⟩
    rw [genericOf_eq_lineage?, hl, Option.bind_some, (h.lineage_alone h₀ hl).1, Option.getD_none]

theorem IsInstantiating.changes {a b : Atlas} (h : IsInstantiating admits pending a)
    (hchanges : Changes false a b) (hmirrored : b.IsMirrored)
    (hkinds : ∀ id s, b.standing? id = some s → admits s.kind) :
    IsInstantiating admits pending b := by
  refine ⟨hmirrored, hkinds, fun p hp => ?_⟩
  obtain ⟨hchild, hself, htarget⟩ := h.pending p hp
  exact ⟨hchanges.holdsClass hchild, (hchanges.genericOf_eq hchild).trans hself,
    hchanges.holdsClass htarget⟩

theorem IsInstantiating.addPending (h : IsInstantiating admits pending progress.atlas)
    {p : PendingInstance} (hp : p ∈ pending) (hshallow : (Build.addPending progress p).IsShallow) :
    IsInstantiating admits pending (Build.addPending progress p).value.atlas := by
  obtain ⟨hchild, hself, htarget⟩ := h.pending p hp
  unfold Build.addPending at hshallow ⊢
  rw [instantiate_eq htarget] at hshallow ⊢
  have hshallow := (Noted.isShallow_bind.mp hshallow).1
  have hwired := h.isMirrored.isWired
  have hmade := delivers_instanceWithin hwired (instantiationLimit progress.atlas.options)
    (Nat.zero_add _) (.refl _) .refl htarget p.spec
  obtain ⟨⟨hmasters, -⟩, -⟩ := instancesKeep_masters.instanceWithin
    (instantiationLimit progress.atlas.options) h.isMirrored.masters (trivial : (fun _ _ => True) _
      p.edge.target) p.spec
  have hdepth := depth_lt_of_isShallow _ 0 hshallow
  rw [Nat.zero_add] at hdepth
  dsimp only
  rw [Noted.value_bind]
  have hmirrored := h.isMirrored.nests hmade.nests hdepth hmasters
  have hfound := h.changes hmade.changes hmirrored fun _ _ hs => hmade.spawns.kinds h.kinds hs
  obtain ⟨hchild, hself, -⟩ := hfound.pending p hp
  unfold addEdge
  split
  · exact hfound
  · refine hfound.changes (changes_linkBase hchild hmade.holdsClass)
      (hmirrored.linkBase hchild hself (hwired.holdsClass_genericOf htarget).1
        (instance?_eq_some_iff.mp hmade.isInstance)) fun id s hs => ?_
    exact hfound.kinds id s ((standing?_linkBase ..).symm.trans hs)

/-! ## The rest of the build -/

theorem mergeCategoryOf_eq (h : ∀ id s, progress.atlas.standing? id = some s → s.kind ≠ .category)
    (owner : Declared) : (mergeCategoryOf progress owner).value = progress := by
  unfold mergeCategoryOf
  dsimp only
  split
  · rfl
  · next e he =>
    have hkind := h owner.1 e.standing (by rw [standing?, he]; rfl)
    have hne : (e.kind != .category) = true := bne_iff_ne.mpr hkind
    rw [if_pos hne]
    rfl

/-- After a build an instance mirrors the bases of its template. -/
theorem mirrors_run (options : Options) {d : Document}
    (hkinds : ∀ decl ∈ d.entities, EntityKind.decode decl.kind ≠ .ok .category)
    (hshallow : (run options d).IsShallow) {generic id : EntityId} {key : String}
    (hpos : 0 < generic.number) (hinstance : (run options d).value.1.IsInstance generic key id) :
    (run options d).value.1.Mirrors generic key id := by
  have hregistered : IsRegistered (· ≠ .category) (prepare (.empty options) d).value.1
      (prepare (.empty options) d).value.2 := by
    refine isRegistered_prepare (by simp) options ?_
    rintro decl hdecl kind hkind rfl
    exact hkinds decl hdecl hkind
  have hprepared := (isRegistering_prepare options d).1
  unfold run at hshallow hinstance ⊢
  unfold extend assemble at hshallow hinstance ⊢
  have hshallow := (Noted.isShallow_bind.mp (Noted.isShallow_bind.mp hshallow).1).2
  simp only [Noted.value_bind] at hinstance ⊢
  generalize (prepare (.empty options) d).value = prepared
    at hregistered hprepared hshallow hinstance
  have hshallow := (Noted.isShallow_bind.mp hshallow).1
  have hwired := hprepared.isWired (.empty options)
  have hstubbed := hregistered.isLinking_foldlM.isStubbed
  have hput := (linksKeep_changes hwired).foldlM .refl fun owner (howner : owner ∈ prepared.2) _ _
    hq hc => ((hregistered.declared owner howner).mono hq.size_le).holdsClass hc
  have hbased : IsInstantiating (· ≠ .category)
      (prepared.2.foldlM addBasesOf (prepared.1, [])).value.2
      (addBases prepared.1 prepared.2).value.atlas := by
    unfold addBases at hshallow ⊢
    have hshallow := (Noted.isShallow_bind.mp hshallow).2
    rw [Noted.value_bind]
    generalize (prepared.2.foldlM addBasesOf (prepared.1, [])).value = linked
      at hstubbed hput hshallow
    have hlinked : Changes true (.empty options) linked.1.atlas :=
      hprepared.trans hput.carries.holds
    have hordered : ∀ p ∈ (linked.2.partition (·.isFromTemplate)).1 ++
        (linked.2.partition (·.isFromTemplate)).2, p ∈ linked.2 := by
      intro p hp
      rw [List.partition_eq_filter_filter] at hp
      rcases List.mem_append.mp hp with hp | hp
      all_goals exact (List.mem_filter.mp hp).1
    refine hshallow.foldlM (P := fun progress : Progress =>
      IsInstantiating (· ≠ .category) linked.2 progress.atlas) ?_
      (isInstantiating_start hstubbed hregistered.isUnlinked (by simp)
        (hlinked.isWired (.empty options)) (hlinked.isForest (.empty options) (.empty options))
        hput.pending)
    exact fun p progress hp hprogress hshallow => hprogress.addPending (hordered p hp) hshallow
  generalize (addBases prepared.1 prepared.2).value = based at hbased hinstance
  have hmerged : (prepared.2.foldlM mergeCategoryOf based).value = based :=
    Noted.foldlM_kept (P := fun progress => progress = based)
      (fun progress owner heq => by rw [heq]; exact mergeCategoryOf_eq hbased.kinds owner) _ rfl
  rw [hmerged] at hinstance ⊢
  have hrest : Agrees Entity.kin based.atlas _ :=
    (KeepsView.foldlM (keepsView_addUsings Entity.kin_modifyNamespace) prepared.2 based).1.trans
      (agrees_finish Entity.kin_modifyNamespace Entity.kin_skeleton _)
  refine (hbased.isMirrored.mirrors generic key id hpos ?_).of_agrees hrest
  rw [isInstance_iff, ← hrest.lineage?_eq]
  exact isInstance_iff.mp hinstance

/-- In the atlas that a build ends with, each base of an instance is made from one of its template, in
the order of these: with the same protection and virtualness, and leading to the same class or to an
instance of it. The bases of the template behind them, which the instance lacks, all lead to
instances. -/
theorem bases_of_instance (options : Options) (d : Document)
    (hkinds : ∀ decl ∈ d.entities, EntityKind.decode decl.kind ≠ .ok .category)
    (hshallow : (run options d).IsShallow) {generic id : EntityId} {key : String}
    (hinstance : (run options d).value.1.IsInstance generic key id) :
    let after := (run options d).value.1
    ∃ first later, after.bases generic = first ++ later ∧
      List.Forall₂ (after.Instantiates (after.instantiation generic key)) first (after.bases id) ∧
      ∀ edge ∈ later, ∃ generic' key', after.IsInstance generic' key' edge.target := by
  intro after
  -- The number zero reads what the number one does.
  have hslot : generic.slot = (EntityId.ofSlot generic.slot).slot := rfl
  have hread := after.lineage?_eq_of_slot hslot
  have hlisted : after.IsInstance (.ofSlot generic.slot) key id := by
    rw [isInstance_iff]
    exact isInstance_iff.mp hinstance
  have hmirrors : after.Mirrors (.ofSlot generic.slot) key id :=
    mirrors_run options hkinds hshallow (Nat.succ_pos _) hlisted
  unfold Mirrors at hmirrors
  rwa [bases_eq_lineage?, Atlas.instantiation_eq, ← Atlas.instantiation_eq,
    ← bases_eq_lineage?] at hmirrors

/-- Four templates. The third one is derived from an instance of the fourth one, which is derived from
the first one with its own parameter, and from an instance of the second one. -/
def unordered : Document where
  entities :=
    [{ name := "B", kind := "class", formals := ["class T"] },
     { name := "D", kind := "class", formals := ["class T"] },
     { name := "C", kind := "class", formals := ["class T"], bases := [.plain "A<int>"] },
     { name := "A", kind := "class", formals := ["class T"],
       bases := [.detailed "B<T>" (some "protected") none, .plain "D<int>"] }]

theorem isShallow_unordered : (run {} unordered).IsShallow := by
  have hnone : (run {} unordered).notices = [] := by decide +kernel
  intro name
  rw [hnone]
  exact List.not_mem_nil

theorem isInstance_unordered : (run {} unordered).value.1.IsInstance ⟨4⟩ "<int>" ⟨5⟩ := by
  have hget : ((run {} unordered).value.1.class? ⟨4⟩).bind (·.instances.get? "<int>") =
      some ⟨5⟩ := by
    decide +kernel
  exact Option.bind_eq_some_iff.mp hget

/-- The protected base of the template is mirrored by its instance. -/
theorem bases_of_instance_unordered :
    let after := (run {} unordered).value.1
    (∀ decl ∈ unordered.entities, EntityKind.decode decl.kind ≠ .ok .category) ∧
      (run {} unordered).IsShallow ∧ after.IsInstance ⟨4⟩ "<int>" ⟨5⟩ ∧
      ∃ first later, after.bases ⟨4⟩ = first ++ later ∧
        List.Forall₂ (after.Instantiates (after.instantiation ⟨4⟩ "<int>")) first
          (after.bases ⟨5⟩) ∧
        ∀ edge ∈ later, ∃ generic key, after.IsInstance generic key edge.target := by
  have hkinds : ∀ decl ∈ unordered.entities, EntityKind.decode decl.kind ≠ .ok .category := by
    decide +kernel
  exact ⟨hkinds, isShallow_unordered, isInstance_unordered,
    bases_of_instance {} unordered hkinds isShallow_unordered isInstance_unordered⟩

/-- The instance lacks the second base of its template. -/
theorem instance_lacks_base :
    let after := (run {} unordered).value.1
    (∀ decl ∈ unordered.entities, EntityKind.decode decl.kind ≠ .ok .category) ∧
      (run {} unordered).IsShallow ∧ after.IsInstance ⟨4⟩ "<int>" ⟨5⟩ ∧
      (after.bases ⟨4⟩).map (·.target) = [⟨1⟩, ⟨7⟩] ∧
      (after.bases ⟨5⟩).map (·.target) = [⟨6⟩] ∧
      ¬ List.Forall₂ (after.Instantiates (after.instantiation ⟨4⟩ "<int>")) (after.bases ⟨4⟩)
        (after.bases ⟨5⟩) := by
  have hlength : ((run {} unordered).value.1.bases ⟨4⟩).length ≠
      ((run {} unordered).value.1.bases ⟨5⟩).length := by
    decide +kernel
  exact ⟨by decide +kernel, isShallow_unordered, isInstance_unordered, by decide +kernel,
    by decide +kernel, fun hmade => hlength hmade.length_eq⟩

end Build

end SymbolAtlas
