import SymbolAtlas.Proofs.Build.Linking
import SymbolAtlas.Proofs.Build.Settling
import SymbolAtlas.Proofs.Graph.Trail

/-!
# Bases that nobody declares

When the bases of a class are looked up, no namespace uses another one yet. So a name that is neither
that of a class in an enclosing scope nor a global one gets a placeholder, whatever the enclosing
namespaces use; and the lookups that fail are as many as there are placeholders in the end.
-/

set_option autoImplicit false

namespace SymbolAtlas

variable {α : Type} {pending : List Build.PendingInstance} {owner : Build.Declared} {e : Entity}

/-! ## Lists -/

theorem foldl_attained {β : Type} {P Q : β → Prop} {f : β → α → β} {xs : List α}
    (hP : ∀ b, P b → ∀ x ∈ xs, P (f b x)) (hQ : ∀ b x, Q b → Q (f b x)) {x : α} (hx : x ∈ xs)
    (hstep : ∀ b, P b → Q (f b x)) {b : β} (hb : P b) : Q (xs.foldl f b) := by
  obtain ⟨before, after, rfl⟩ := List.append_of_mem hx
  rw [List.foldl_append]
  refine foldl_kept hQ after (hstep _ ?_)
  exact List.foldlRecOn before f hb fun b hb y hy =>
    hP b hb y (List.mem_append_left _ hy)

theorem countP_eq_zero_of_getElem? {p : α → Bool} {xs : List α}
    (h : ∀ i : Nat, (xs[i]?).any p = false) : xs.countP p = 0 := by
  refine List.countP_eq_zero.mpr fun x hx => ?_
  obtain ⟨i, hi⟩ := List.mem_iff_getElem?.mp hx
  have hp := h i
  rw [hi, Option.any_some] at hp
  rw [hp]
  exact Bool.false_ne_true

theorem countP_eq_of_getElem? {p : α → Bool} {xs ys : List α}
    (h : ∀ i : Nat, (xs[i]?).any p = (ys[i]?).any p) : xs.countP p = ys.countP p := by
  induction xs generalizing ys with
  | nil => exact (countP_eq_zero_of_getElem? fun i => (h i).symm).symm
  | cons x xs ih =>
    cases ys with
    | nil => exact countP_eq_zero_of_getElem? h
    | cons y ys =>
      have hhead : p x = p y := by simpa using h 0
      rw [List.countP_cons, List.countP_cons, hhead, ih fun i => by simpa using h (i + 1)]

namespace Atlas

variable {id : EntityId}

/-- A name that is not that of a class in a scope, in one around it, or globally. -/
def NamesNoClass (a : Atlas) (scope : Option EntityId) (name : String) : Prop :=
  (∀ outer ∈ a.scopeChain scope,
    a.findAccepted? (·.isClass) (QualifiedName.inScope (a.name outer) name) = none) ∧
  a.findAccepted? (·.isClass) name = none

instance (a : Atlas) (scope : Option EntityId) (name : String) :
    Decidable (a.NamesNoClass scope name) :=
  inferInstanceAs (Decidable (_ ∧ _))

/-! ## Scopes -/

theorem scopeGraph_next_eq (a : Atlas) (id : EntityId) :
    a.scopeGraph.next id = ((a.standing? id).bind (·.outer)).toList := by
  unfold scopeGraph standing?
  dsimp only
  cases a.entity? id <;> rfl

theorem any_isClass_eq (a : Atlas) (id : EntityId) :
    (a.entity? id).any (·.isClass) = (a.lineage? id).isSome := by
  unfold lineage?
  cases a.entity? id with
  | none => rfl
  | some e => exact (Option.isSome_map ..).symm

theorem Holds.mem_entityNumbers {a : Atlas} (h : a.Holds id) : id ∈ a.entityNumbers := by
  obtain ⟨e, he⟩ := h.exists_entity
  exact mem_entityNumbers_of_entity? he

section Scopes

variable {admits : EntityKind → Prop} {a₀ a : Atlas} {scope : Option EntityId}

theorem IsUnlinked.isClosedPart (h : a.IsUnlinked admits) : a.scopeGraph.IsClosedPart a.Holds := by
  intro id _ outer houter
  have hentity : ∃ e, a.entity? id = some e ∧ e.outer = some outer := by
    unfold scopeGraph at houter
    simpa only [Option.mem_toList, Option.bind_eq_some_iff] using houter
  obtain ⟨e, he, houter⟩ := hentity
  exact (h.entities id e he).outer outer houter

theorem IsUnlinked.holds_of_mem_scopeChain (h : a.IsUnlinked admits)
    (hscope : ∀ id, scope = some id → a.Holds id) {outer : EntityId}
    (houter : outer ∈ a.scopeChain scope) : a.Holds outer := by
  unfold scopeChain at houter
  split at houter
  · simp at houter
  · next id =>
    obtain ⟨w, hw, rfl⟩ := List.mem_map.mp houter
    refine h.isClosedPart.mem_trailFrom (fun w hw => ?_) hw
    rw [List.mem_singleton.mp hw]
    exact hscope id rfl

variable (h : a₀.IsStubbed a) (h₀ : a₀.IsUnlinked admits)

include h h₀

theorem IsStubbed.scopeChain_eq (hscope : ∀ id, scope = some id → a₀.Holds id) :
    a.scopeChain scope = a₀.scopeChain scope := by
  unfold scopeChain
  split
  · rfl
  · next id =>
    unfold Graph.trail
    rw [h₀.isClosedPart.trailFrom_congr]
    · intro x hx
      rw [scopeGraph_next_eq, scopeGraph_next_eq, h.standing x hx.slot_lt]
    · intro x hx
      exact iff_of_true (hx.mono h.size).mem_entityNumbers hx.mem_entityNumbers
    · intro w hw
      rw [List.mem_singleton.mp hw]
      exact hscope id rfl

theorem IsStubbed.le_slot_of_findAccepted? {name : String}
    (hfind : a.findAccepted? (·.isClass) name = some id)
    (hnone : a₀.findAccepted? (·.isClass) name = none) : a₀.entities.size ≤ id.slot := by
  obtain ⟨hname, hclass⟩ := find?_of_findAccepted? hfind
  rcases h.found name id hname with hname₀ | ⟨-, hslot⟩
  · have hslot := (h₀.names name id hname₀).slot_lt
    rw [any_isClass_eq, isSome_eq_of_rel (h.lineage id hslot), ← any_isClass_eq] at hclass
    rw [findAccepted?, hname₀, Option.filter_some, if_pos hclass] at hnone
    cases hnone
  · exact hslot

theorem IsStubbed.le_slot_of_resolve? (hscope : ∀ id, scope = some id → a₀.Holds id) {name : String}
    (hlocal : Text.after? [':', ':'] (Text.trimmed name).toList = none)
    (hno : a₀.NamesNoClass scope (Text.trimmed name))
    (hresolve : a.resolve? scope name (·.isClass) = some id) : a₀.entities.size ≤ id.slot := by
  rcases resolve?_cases hresolve with ⟨rest, hrest, -⟩ | ⟨-, hfind⟩
  · rw [hrest] at hlocal
    cases hlocal
  · rcases hfind with ⟨outer, houter, hfind⟩ | hfind | ⟨used, hused, -⟩
    · rw [h.scopeChain_eq h₀ hscope] at houter
      have hholds := h₀.holds_of_mem_scopeChain hscope houter
      rw [name_eq_standing?, h.standing outer hholds.slot_lt, ← name_eq_standing?] at hfind
      exact h.le_slot_of_findAccepted? h₀ hfind (hno.1 outer houter)
    · exact h.le_slot_of_findAccepted? h₀ hfind hno.2
    · -- Using-directives come later.
      obtain ⟨outer, -, hused⟩ := List.mem_flatMap.mp hused
      rw [h.used outer] at hused
      cases hused

end Scopes

/-! ## Counting placeholders -/

theorem any_isUsedOnly_eq (a : Atlas) (slot : Nat) :
    (a.entities.toList[slot]?).any (·.flags.isUsedOnly) =
      (a.standing? (.ofSlot slot)).any (·.isUsedOnly) := by
  unfold standing? entity?
  rw [Array.getElem?_toList, Option.any_map]
  rfl

theorem Settles.countP_isUsedOnly {a b : Atlas} (h : a.Settles b) :
    b.entities.toList.countP (·.flags.isUsedOnly) =
      a.entities.toList.countP (·.flags.isUsedOnly) := by
  refine countP_eq_of_getElem? fun slot => ?_
  rw [any_isUsedOnly_eq, any_isUsedOnly_eq, Bool.eq_iff_iff, Option.any_eq_true, Option.any_eq_true]
  constructor
  · rintro ⟨s, hs, hused⟩
    exact h.placeholders _ s hs hused
  · rintro ⟨s, hs, hused⟩
    obtain ⟨s', hs', -, hsame, -⟩ := h.standing _ s hs
    exact ⟨s', hs', hsame.trans hused⟩

end Atlas

namespace Build

open Atlas

variable {progress : Progress}

/-! ## Linking goes on -/

theorem linksKeep_continues (a : Atlas) :
    LinksKeep (fun q => a.Continues q.atlas) fun _ _ => True :=
  .of_always (fun q name hq => hq.trans (continues_addPlaceholder q.atlas name))
    fun q child edge hq => hq.trans (Atlas.Settles.linkBase q.atlas child edge).toContinues

theorem continues_addBase (child : EntityId) (decl : EntityDecl) (scope : Option EntityId)
    (formals : List String) (state : Progress × List PendingInstance) (base : BaseDecl) :
    state.1.atlas.Continues (addBase child decl scope formals state base).value.1.atlas :=
  ((linksKeep_continues _).addBase ⟨.refl (Atlas.Settles.refl _).toContinues,
    fun _ _ => ⟨trivial, trivial⟩⟩ trivial decl scope formals base).carries.holds

theorem continues_addBasesOf (state : Progress × List PendingInstance) (owner : Declared) :
    state.1.atlas.Continues (addBasesOf state owner).value.1.atlas :=
  ((linksKeep_continues _).addBasesOf ⟨.refl (Atlas.Settles.refl _).toContinues,
    fun _ _ => ⟨trivial, trivial⟩⟩ fun _ _ _ _ => trivial).carries.holds

/-! ## The edge to a placeholder -/

/-- The edge that the declaration of a base makes. -/
def edgeOf (a : Atlas) (base : BaseDecl) (words : Protection × Virtualness) (target : EntityId) :
    BaseEdge where
  target := target
  usedName :=
    if (QualifiedName.cutTemplateArguments base.name).1 == a.name target then none
    else some base.name
  protection := words.1
  virtualness := words.2
  templateSpec := (QualifiedName.cutTemplateArguments base.name).2

/-- The base of a class leads to a placeholder that was not in `a₀`. -/
def MissesBase (a₀ a : Atlas) (child : EntityId) (base : BaseDecl)
    (words : Protection × Virtualness) : Prop :=
  ∃ id, edgeOf a base words id ∈ a.bases child ∧ a₀.entities.size ≤ id.slot ∧
    (a.lineage? id).isSome = true ∧
    ∃ s, a.standing? id = some s ∧ s.isArtificial = true ∧ s.isUsedOnly = true

section Placeholder

variable {admits : EntityKind → Prop} {a₀ : Atlas} {child : EntityId} {base : BaseDecl}
  {words : Protection × Virtualness}
variable {name : String} {state : Progress × List PendingInstance}

theorem MissesBase.continues {a b : Atlas} (h : MissesBase a₀ a child base words)
    (hcontinues : a.Continues b) : MissesBase a₀ b child base words := by
  obtain ⟨id, hedge, hslot, hclass, s, hs, hartificial, hused⟩ := h
  obtain ⟨l, hl⟩ := Option.isSome_iff_exists.mp hclass
  obtain ⟨l', hl', -⟩ := hcontinues.lineage id l hl
  obtain ⟨s', hs', hname, hused', hartificial'⟩ := hcontinues.standing id s hs
  have hsame : edgeOf b base words id = edgeOf a base words id := by
    have hread : b.name id = a.name id := by
      rw [name_eq_standing?, name_eq_standing?, hs, hs', Option.map_some, Option.map_some, hname]
    unfold edgeOf
    rw [hread]
  refine ⟨id, ?_, hslot, ?_, s', hs', hartificial' hartificial, hused'.trans hused⟩
  · rw [hsame]
    exact hcontinues.mem_bases hedge
  · rw [hl']
    rfl

theorem le_slot_findBase (h₀ : a₀.IsUnlinked admits) (h : IsLinking a₀ progress pending)
    {scope : Option EntityId} (hscope : ∀ id, scope = some id → a₀.Holds id)
    (hlocal : Text.after? [':', ':'] (Text.trimmed name).toList = none)
    (hno : a₀.NamesNoClass scope (Text.trimmed name)) (decl : EntityDecl) :
    a₀.entities.size ≤ (findBase progress scope name decl).value.2.slot := by
  unfold findBase
  split
  · next id hresolve => exact h.isStubbed.le_slot_of_resolve? h₀ hscope hlocal hno hresolve
  · show a₀.entities.size ≤ (addPlaceholder progress.atlas name).2.slot
    rw [addPlaceholder_id]
    exact h.isStubbed.size

variable (hwords : (edgeWords base owner.2).value = some words)
  (hname : (QualifiedName.cutTemplateArguments base.name).1 = name)
  (hlocal : Text.after? [':', ':'] (Text.trimmed name).toList = none)

include hwords hname hlocal

/-- A base that no class is named by leads to a new placeholder. -/
theorem missesBase_addBase (h₀ : a₀.IsUnlinked admits) (h : IsLinking a₀ state.1 state.2)
    (hchild : a₀.Holds child) (hclass : (a₀.lineage? child).isSome = true)
    {scope : Option EntityId} (hscope : ∀ id, scope = some id → a₀.Holds id)
    (hno : a₀.NamesNoClass scope (Text.trimmed name)) (formals : List String) :
    MissesBase a₀ (addBase child owner.2 scope formals state base).value.1.atlas child base
      words := by
  obtain ⟨hfound, hholds⟩ := isLinking_findBase h₀ h scope name owner.2
  have hslot := le_slot_findBase h₀ h hscope hlocal hno owner.2
  unfold addBase
  dsimp only
  rw [Noted.value_bind, hwords, hname]
  rw [Noted.value_bind]
  generalize (findBase state.1 scope name owner.2).value = found at hfound hholds hslot
  obtain ⟨halone, s, hs, hplaceholder⟩ := hfound.isStubbed.stub found.2 hslot hholds.slot_lt
  -- A placeholder has no formal parameters, so the edge is not put off.
  have htemplate : (found.1.atlas.class? found.2).any (·.isTemplate) = false := by
    rw [any_isTemplate_eq, halone]
    rfl
  have hne : found.2 ≠ child := by
    rintro rfl
    exact absurd hchild.slot_lt (Nat.not_lt.mpr hslot)
  have hclass' : (found.1.atlas.lineage? child).isSome = true :=
    (isSome_eq_of_rel (hfound.isStubbed.lineage child hchild.slot_lt)).trans hclass
  rw [htemplate, Bool.and_false, Bool.false_and]
  unfold addEdge
  rw [if_neg hne]
  let edge : BaseEdge := edgeOf found.1.atlas base words found.2
  have hlinked : MissesBase a₀ (found.1.atlas.linkBase child edge).value child base words := by
    refine ⟨found.2, ?_, hslot, ?_, s, ?_, hplaceholder.isArtificial, hplaceholder.isUsedOnly⟩
    · rw [bases_linkBase _ hne, if_pos ⟨hclass', rfl⟩]
      refine List.mem_append_right _ (List.mem_singleton.mpr ?_)
      unfold edge edgeOf
      rw [name_eq_standing?, name_eq_standing?, standing?_linkBase]
    · rw [lineage?_linkBase _ hne, if_neg, halone]
      · rfl
      · intro hsame
        exact hne (hholds.eq_of_slot hchild hsame.symm)
    · rw [standing?_linkBase]
      exact hs
  unfold edge edgeOf at hlinked
  rw [hname] at hlinked
  exact hlinked

theorem missesBase_addBasesOf (h₀ : a₀.IsUnlinked admits) (h : IsLinking a₀ state.1 state.2)
    (howner : a₀.Holds owner.1) (he : a₀.entity? owner.1 = some e) (hclass : e.isClass = true)
    (hbase : base ∈ owner.2.bases) (hno : a₀.NamesNoClass e.outer (Text.trimmed name)) :
    MissesBase a₀ (addBasesOf state owner).value.1.atlas owner.1 base words := by
  have hlineage : (a₀.lineage? owner.1).isSome = true := by
    rw [← any_isClass_eq, he]
    exact hclass
  have hstanding := h.isStubbed.standing owner.1 howner.slot_lt
  obtain ⟨e', he'⟩ := (howner.mono h.isStubbed.size).exists_entity
  have houter : e'.outer = e.outer := by
    rw [standing?, standing?, he, he'] at hstanding
    exact congrArg Standing.outer (Option.some.inj hstanding)
  obtain ⟨c, hc⟩ : ∃ c, state.1.atlas.class? owner.1 = some c := by
    rw [← Option.isSome_iff_exists, isSome_class?_eq]
    exact (isSome_eq_of_rel (h.isStubbed.lineage owner.1 howner.slot_lt)).trans hlineage
  have hscope : ∀ id, e.outer = some id → a₀.Holds id := (h₀.entities owner.1 e he).outer
  unfold addBasesOf
  rw [he', hc]
  rw [Noted.value_foldlM, houter]
  refine foldl_attained (P := fun s : Progress × List PendingInstance => IsLinking a₀ s.1 s.2)
    (Q := fun s : Progress × List PendingInstance =>
      MissesBase a₀ s.1.atlas owner.1 base words) ?_ ?_ hbase ?_ h
  · exact fun s hs base' _ => isLinking_addBase h₀ hs howner owner.2 e.outer _ base'
  · exact fun s base' hs => hs.continues (continues_addBase owner.1 owner.2 e.outer _ s base')
  · exact fun s hs => missesBase_addBase hwords hname hlocal h₀ hs howner hlineage hscope hno _

theorem missesBase_foldlM {declared : List Declared} (h : IsRegistered admits progress declared)
    (howner : owner ∈ declared) (he : progress.atlas.entity? owner.1 = some e)
    (hclass : e.isClass = true) (hbase : base ∈ owner.2.bases)
    (hno : progress.atlas.NamesNoClass e.outer (Text.trimmed name)) :
    MissesBase progress.atlas (declared.foldlM addBasesOf (progress, [])).value.1.atlas owner.1 base
      words := by
  rw [Noted.value_foldlM]
  refine foldl_attained (P := fun s : Progress × List PendingInstance =>
      IsLinking progress.atlas s.1 s.2)
    (Q := fun s : Progress × List PendingInstance =>
      MissesBase progress.atlas s.1.atlas owner.1 base words) ?_ ?_ howner ?_ h.isLinking
  · exact fun s hs owner' howner' =>
      isLinking_addBasesOf h.isUnlinked hs (h.declared owner' howner')
  · exact fun s owner' hs => hs.continues (continues_addBasesOf s owner')
  · exact fun s hs => missesBase_addBasesOf hwords hname hlocal h.isUnlinked hs
      (h.declared owner howner) he hclass hbase hno

end Placeholder

/-! ## How many there are -/

theorem IsLinking.countP_isUsedOnly {admits : EntityKind → Prop} {a₀ : Atlas} {progress : Progress}
    (h₀ : a₀.IsUnlinked admits) (h : IsLinking a₀ progress pending) :
    progress.atlas.entities.toList.countP (·.flags.isUsedOnly) =
      progress.summary.unresolvedBases := by
  have hcount := h.count
  have hflag {slot : Nat} {e : Entity} (he : progress.atlas.entities.toList[slot]? = some e) :
      e.flags.isUsedOnly = decide (a₀.entities.size ≤ slot) := by
    have hread := any_isUsedOnly_eq progress.atlas slot
    rw [he, Option.any_some] at hread
    rw [hread]
    by_cases hslot : slot < a₀.entities.size
    · obtain ⟨e₀, he₀⟩ := (holds_ofSlot hslot).exists_entity
      rw [h.isStubbed.standing (.ofSlot slot) hslot, standing?, he₀, Option.map_some,
        decide_eq_false (Nat.not_le.mpr hslot)]
      exact (h₀.entities _ e₀ he₀).isUsedOnly
    · have hlt : slot < progress.atlas.entities.size := by
        exact (List.getElem?_eq_some_iff.mp he).1
      obtain ⟨-, s, hs, hplaceholder⟩ :=
        h.isStubbed.stub (.ofSlot slot) (Nat.not_lt.mp hslot) hlt
      rw [hs, Option.any_some, hplaceholder.isUsedOnly, decide_eq_true (Nat.not_lt.mp hslot)]
  rw [← List.take_append_drop a₀.entities.size progress.atlas.entities.toList,
    List.countP_append, List.countP_eq_zero.mpr, List.countP_eq_length.mpr]
  · rw [List.length_drop, Array.length_toList]
    omega
  · intro e he
    obtain ⟨i, hi⟩ := List.mem_iff_getElem?.mp he
    rw [List.getElem?_drop] at hi
    rw [hflag hi]
    exact decide_eq_true (Nat.le_add_right _ i)
  · intro e he
    obtain ⟨i, hi⟩ := List.mem_iff_getElem?.mp he
    rw [List.getElem?_take] at hi
    split at hi
    · next hlt =>
      rw [hflag hi, decide_eq_false (Nat.not_le.mpr hlt)]
      exact Bool.false_ne_true
    · cases hi

/-! ## The whole build -/

/-- The bases that a build counts as unresolved are as many as there are classes that are there for
nothing but being a base. A base that is the name of no class in an enclosing scope, and of no global
one, is an edge to such a class, whatever the enclosing namespaces use. -/
theorem placeholder_of_missing_base (options : Options) (d : Document) :
    let prepared := (prepare (.empty options) d).value
    let before := prepared.1.atlas
    let after := (run options d).value.1
    (run options d).value.2.unresolvedBases = after.entities.toList.countP (·.flags.isUsedOnly) ∧
    ∀ owner ∈ prepared.2, ∀ e, before.entity? owner.1 = some e → e.isClass = true →
      ∀ base ∈ owner.2.bases, ∀ words, (edgeWords base owner.2).value = some words →
      let name := Text.trimmed (QualifiedName.cutTemplateArguments base.name).1
      Text.after? [':', ':'] name.toList = none → before.NamesNoClass e.outer name →
      ∃ id placeholder, edgeOf after base words id ∈ after.bases owner.1 ∧
        before.entity? id = none ∧ after.entity? id = some placeholder ∧
        placeholder.isClass = true ∧ placeholder.flags.isArtificial = true ∧
        placeholder.flags.isUsedOnly = true := by
  intro prepared before after
  have hregistered : IsRegistered (fun _ => True) prepared.1 prepared.2 :=
    isRegistered_prepare trivial options fun _ _ _ _ => trivial
  have hlinked := hregistered.isLinking_foldlM
  obtain ⟨hsettles, hsummary⟩ := settles_run options d
  refine ⟨?_, ?_⟩
  · rw [hsummary, hsettles.countP_isUsedOnly]
    exact (hlinked.countP_isUsedOnly hregistered.isUnlinked).symm
  · intro owner howner e he hclass base hbase words hwords name hlocal hno
    have hmissing := missesBase_foldlM hwords rfl hlocal hregistered howner he hclass hbase hno
    obtain ⟨id, hedge, hslot, hlineage, s, hs, hartificial, hused⟩ :=
      hmissing.continues hsettles.toContinues
    obtain ⟨placeholder, hplaceholder, rfl⟩ := Option.map_eq_some_iff.mp hs
    refine ⟨id, placeholder, hedge, Array.getElem?_eq_none hslot, hplaceholder, ?_, hartificial,
      hused⟩
    rw [← any_isClass_eq, hplaceholder] at hlineage
    exact hlineage

/-- A namespace with a class, and a class in another namespace that uses the first one, derived from
the class by its local name. -/
def borrowing : Document where
  entities :=
    [{ name := "lib", kind := "namespace" },
     { name := "lib::Widget", kind := "class" },
     { name := "app", kind := "namespace", usingNamespaces := ["lib"] },
     { name := "app::Button", kind := "class", bases := [.plain "Widget"] }]

/-- The class is derived from a placeholder. -/
theorem placeholder_of_missing_base_borrowing :
    let after := (run {} borrowing).value.1
    (run {} borrowing).value.2.unresolvedBases =
      after.entities.toList.countP (·.flags.isUsedOnly) ∧
    ∃ id placeholder, edgeOf after (.plain "Widget") (.pub, .normal) id ∈ after.bases ⟨4⟩ ∧
      (prepare (.empty {}) borrowing).value.1.atlas.entity? id = none ∧
      after.entity? id = some placeholder ∧ placeholder.isClass = true ∧
      placeholder.flags.isArtificial = true ∧ placeholder.flags.isUsedOnly = true := by
  have hholds : ∃ owner ∈ (prepare (.empty {}) borrowing).value.2, owner.1 = ⟨4⟩ ∧
      BaseDecl.plain "Widget" ∈ owner.2.bases ∧
      (edgeWords (.plain "Widget") owner.2).value = some (.pub, .normal) := by
    decide +kernel
  have hentity : ((prepare (.empty {}) borrowing).value.1.atlas.entity? ⟨4⟩).any (fun e =>
      e.isClass && decide ((prepare (.empty {}) borrowing).value.1.atlas.NamesNoClass e.outer
        "Widget")) = true := by
    decide +kernel
  obtain ⟨owner, howner, hid, hbase, hwords⟩ := hholds
  obtain ⟨e, he, hfacts⟩ := (Option.any_eq_true _ _).mp hentity
  rw [Bool.and_eq_true, decide_eq_true_eq] at hfacts
  obtain ⟨hcount, hplaceholder⟩ := placeholder_of_missing_base {} borrowing
  have hmissing := hplaceholder owner howner e (hid ▸ he) hfacts.1 (.plain "Widget") hbase
    (.pub, .normal) hwords (by decide +kernel) hfacts.2
  rw [hid] at hmissing
  exact ⟨hcount, hmissing⟩

/-- The namespace around the class uses one that declares a class of the name; the class has no edge
to it. -/
theorem used_namespace_not_searched :
    let prepared := (prepare (.empty {}) borrowing).value
    let after := (run {} borrowing).value.1
    prepared.1.atlas.NamesNoClass (some ⟨3⟩) "Widget" ∧
      (prepared.1.atlas.entity? ⟨4⟩).map (·.outer) = some (some ⟨3⟩) ∧
      after.usedNamespaces ⟨3⟩ = [⟨1⟩] ∧
      prepared.1.atlas.findAccepted? (·.isClass)
        (QualifiedName.inScope (after.name ⟨1⟩) "Widget") = some ⟨2⟩ ∧
      (after.bases ⟨4⟩).map (·.target) = [⟨5⟩] ∧
      (after.entity? ⟨5⟩).any (·.flags.isArtificial) = true ∧
      (run {} borrowing).value.2.unresolvedBases = 1 := by
  decide +kernel

end Build

end SymbolAtlas
