import SymbolAtlas.Proofs.Build.Provenance

/-!
# Before bases are linked

The first part of a build registers entities, puts them into scopes and gives them members. When the
bases come to be looked up, no class has an edge or an instance, no namespace uses another one, and
every name leads to an entity.
-/

set_option autoImplicit false

namespace SymbolAtlas

variable {kind : EntityKind}

/-- An entity of an admissible kind that is tied to a scope and to nothing else. -/
structure Entity.IsUnlinked (admits : EntityKind → Prop) (size : Nat) (e : Entity) : Prop where
  kind : admits e.kind
  isClass : e.lineage?.isSome = !e.kind.isNamespaceLike
  isUsedOnly : e.flags.isUsedOnly = false
  outer : ∀ o, e.outer = some o → 0 < o.number ∧ o.number ≤ size
  lineage : ∀ l, e.lineage? = some l → l = { Lineage.alone with formals := l.formals }
  used : ∀ u, e.used? = some u → u = .empty

namespace Entity.IsUnlinked

variable {admits : EntityKind → Prop} {size : Nat} {e e' : Entity}

theorem mono {size' : Nat} (h : e.IsUnlinked admits size) (hsize : size ≤ size') :
    e.IsUnlinked admits size' where
  kind := h.kind
  isClass := h.isClass
  isUsedOnly := h.isUsedOnly
  outer o ho := ⟨(h.outer o ho).1, Nat.le_trans (h.outer o ho).2 hsize⟩
  lineage := h.lineage
  used := h.used

theorem of_ties (h : e.IsUnlinked admits size) (hties : e'.ties = e.ties) :
    e'.IsUnlinked admits size := by
  have hstanding : e'.standing = e.standing := congrArg (·.1.1) hties
  have hlineage : e'.lineage? = e.lineage? := congrArg (·.1.2) hties
  have hused : e'.used? = e.used? := congrArg (·.2) hties
  have hkind : e'.kind = e.kind := congrArg Standing.kind hstanding
  refine ⟨hkind ▸ h.kind, ?_, ?_, fun o ho => h.outer o ?_, fun l hl => h.lineage l ?_,
    fun u hu => h.used u ?_⟩
  · rw [hlineage, hkind]
    exact h.isClass
  · exact (congrArg Standing.isUsedOnly hstanding).trans h.isUsedOnly
  · exact (congrArg Standing.outer hstanding).symm.trans ho
  · rw [← hlineage, hl]
  · rw [← hused, hu]

theorem declare (id : EntityId) (name : String) (hkind : admits kind) (location : Location)
    (isSimple hasSubGrouping : Bool) :
    (Entity.declare id name kind location isSimple hasSubGrouping).IsUnlinked admits size where
  kind := hkind
  isClass := by
    unfold Entity.declare lineage? class?
    cases kind.isNamespaceLike <;> rfl
  isUsedOnly := rfl
  outer o ho := by cases ho
  lineage l hl := by
    rw [lineage?_declare hl]
    rfl
  used u hu := by
    unfold Entity.declare used? namespace? at hu
    cases hlike : kind.isNamespaceLike with
    | true =>
      rw [hlike] at hu
      exact (Option.some.inj hu).symm
    | false =>
      rw [hlike] at hu
      cases hu

theorem withFormals (h : e.IsUnlinked admits size) (formals : List Argument) :
    (e.modifyClass fun c => { c with formals }).IsUnlinked admits size := by
  unfold modifyClass
  split
  · next c hbody =>
    have hlineage : e.lineage? = some c.lineage := by
      rw [lineage?, class?, hbody]
      rfl
    refine ⟨h.kind, ?_, h.isUsedOnly, h.outer, fun l hl => ?_, fun u hu => by cases hu⟩
    · rw [← h.isClass, hlineage]
      rfl
    · cases hl
      have halone := h.lineage _ hlineage
      exact congrArg (fun l => { l with formals }) halone
  · exact h

end Entity.IsUnlinked

namespace Atlas

/-- Every name leads to an entity, and every entity is of an admissible kind and unlinked. -/
structure IsUnlinked (admits : EntityKind → Prop) (a : Atlas) : Prop where
  names : ∀ name id, a.find? name = some id → a.Holds id
  entities : ∀ id e, a.entity? id = some e → e.IsUnlinked admits a.entities.size

namespace IsUnlinked

variable {admits : EntityKind → Prop} {a b : Atlas}

theorem empty (admits : EntityKind → Prop) (options : Options) :
    (Atlas.empty options).IsUnlinked admits := by
  constructor
  · intro name id h
    simp [Atlas.empty, find?] at h
  · intro id e he
    simp [Atlas.empty, entity?] at he

variable (h : a.IsUnlinked admits) (name : String)

include h

theorem of_agrees (hagrees : Agrees Entity.ties a b) : b.IsUnlinked admits := by
  constructor
  · intro name id hname
    rw [hagrees.find?_eq] at hname
    exact (h.names name id hname).mono (Nat.le_of_eq hagrees.size.symm)
  · intro id e' he'
    obtain ⟨e, he, hties⟩ := hagrees.exists_before he'
    rw [hagrees.size]
    exact (h.entities id e he).of_ties hties.symm

theorem modifyEntity (id : EntityId) {f : Entity → Entity}
    (hf : ∀ e, e.IsUnlinked admits a.entities.size → (f e).IsUnlinked admits a.entities.size) :
    (a.modifyEntity id f).IsUnlinked admits := by
  constructor
  · intro name id' hname
    exact (h.names name id' hname).mono (Nat.le_of_eq (a.size_modifyEntity id f).symm)
  · intro id' e he
    rw [entity?_modifyEntity] at he
    rw [size_modifyEntity]
    split at he
    · obtain ⟨e', he', rfl⟩ := Option.map_eq_some_iff.mp he
      exact hf e' (h.entities id' e' he')
    · exact h.entities id' e he

theorem allocate (hkind : admits kind) (location : Location) :
    (a.allocate name kind location).1.IsUnlinked admits := by
  have hsize : a.entities.size ≤ (a.allocate name kind location).1.entities.size := by
    rw [size_allocate]
    exact Nat.le_succ _
  refine ⟨fun name' id hname => (h.names name' id hname).mono hsize, fun id e he => ?_⟩
  rw [entity?_allocate] at he
  split at he
  · cases he
    exact .declare _ name hkind location _ _
  · exact (h.entities id e he).mono hsize

theorem register (hkind : admits kind) (location : Location) :
    (a.register name kind location).1.IsUnlinked admits ∧
      (a.register name kind location).1.Holds (a.register name kind location).2 := by
  unfold Atlas.register
  split
  · next id hfind => exact ⟨h, h.names name id hfind⟩
  · have hallocated := h.allocate name hkind location
    have hnew : (a.allocate name kind location).1.Holds (a.allocate name kind location).2 := by
      refine holds_ofSlot ?_
      rw [size_allocate]
      exact Nat.lt_succ_self _
    refine ⟨⟨fun name' id hname => ?_, hallocated.entities⟩, hnew⟩
    unfold find? at hname
    rw [Dict.get?_insert] at hname
    split at hname
    · cases hname
      exact hnew
    · exact hallocated.names name' id hname

theorem setOuter {inner outer : EntityId} (houter : a.Holds outer) :
    (a.setOuter inner outer).IsUnlinked admits := by
  unfold Atlas.setOuter
  split
  · exact h
  · split
    · refine IsUnlinked.modifyEntity ?_ outer ?_
      · refine h.modifyEntity inner fun e he => ?_
        refine ⟨he.kind, he.isClass, he.isUsedOnly, fun o ho => ?_, he.lineage, he.used⟩
        cases ho
        exact houter
      · intro e he
        split <;> exact he.of_ties rfl
    · exact h

theorem setFormals {id : EntityId} {formals : List String} (hb : a.setFormals id formals = .ok b) :
    b.IsUnlinked admits ∧ b.entities.size = a.entities.size := by
  obtain ⟨c, -, hb⟩ := Except.bind_eq_ok hb
  cases hb
  exact ⟨h.modifyEntity id fun e he => he.withFormals _, a.size_modifyEntity id _⟩

end IsUnlinked

end Atlas

namespace Build

open Atlas

variable {admits : EntityKind → Prop} {progress : Progress} {declared : List Declared}

/-! ## Registering -/

/-- What is known while entities are registered. -/
structure IsRegistered (admits : EntityKind → Prop) (progress : Progress)
    (declared : List Declared) : Prop where
  isUnlinked : progress.atlas.IsUnlinked admits
  declared : ∀ owner ∈ declared, progress.atlas.Holds owner.1
  unresolvedBases : progress.summary.unresolvedBases = 0

theorem ties_describe (decl : EntityDecl) (p : Protection) (e : Entity) :
    (describe decl p e).ties = e.ties := by
  exact Entity.ties_modifyNamespace _ fun n => rfl

theorem size_register_le (a : Atlas) (name : String) (kind : EntityKind) (location : Location) :
    a.entities.size ≤ (a.register name kind location).1.entities.size := by
  unfold Atlas.register
  split
  · exact Nat.le_refl _
  · show a.entities.size ≤ (a.allocate name kind location).1.entities.size
    rw [size_allocate]
    exact Nat.le_succ _

theorem isUnlinked_declareFormals {a : Atlas} (h : a.IsUnlinked admits) (id : EntityId)
    (decl : EntityDecl) :
    (declareFormals a id decl).value.IsUnlinked admits ∧
      (declareFormals a id decl).value.entities.size = a.entities.size :=
  declareFormals_kept (P := fun b => b.IsUnlinked admits ∧ b.entities.size = a.entities.size)
    h.setFormals ⟨h, rfl⟩

theorem isUnlinked_registerAs {a : Atlas} (h : a.IsUnlinked admits) (decl : EntityDecl)
    (hkind : admits kind) (p : Protection) : (registerAs a decl kind p).value.1.IsUnlinked admits ∧
      a.entities.size ≤ (registerAs a decl kind p).value.1.entities.size ∧
      (registerAs a decl kind p).value.1.Holds (registerAs a decl kind p).value.2 := by
  obtain ⟨hregistered, hholds⟩ := h.register decl.name hkind decl.location
  have hsize := size_register_le a decl.name kind decl.location
  -- What the declaration says about the entity is no part of its ties.
  have hdescribed := (Agrees.modifyEntity (a.register decl.name kind decl.location).1
    (a.register decl.name kind decl.location).2 (ties_describe decl p)).trans
    (agrees_modifyClass _ (a.register decl.name kind decl.location).2
      (f := fun c => { c with traits := c.traits.addAll (traitsOf decl kind).value }) fun c => rfl)
  obtain ⟨hformals, hsame⟩ := isUnlinked_declareFormals (hregistered.of_agrees hdescribed)
    (a.register decl.name kind decl.location).2 decl
  have hsize' := hsame.trans hdescribed.size
  exact ⟨hformals, hsize' ▸ hsize, hholds.mono (Nat.le_of_eq hsize'.symm)⟩

theorem isRegistered_registerOne {state : Progress × List Declared}
    (h : IsRegistered admits state.1 state.2) {decl : EntityDecl}
    (hkind : ∀ kind, EntityKind.decode decl.kind = .ok kind → admits kind) :
    IsRegistered admits (registerOne state decl).value.1 (registerOne state decl).value.2 := by
  refine registerOne_kept (P := fun s => IsRegistered admits s.1 s.2) (fun kind p hdecode _ => ?_)
    ⟨h.isUnlinked, h.declared, h.unresolvedBases⟩
  obtain ⟨hunlinked, hsize, hholds⟩ :=
    isUnlinked_registerAs h.isUnlinked decl (hkind kind hdecode) p
  refine ⟨hunlinked, fun owner howner => ?_, h.unresolvedBases⟩
  rcases List.mem_append.mp howner with howner | howner
  · exact (h.declared owner howner).mono hsize
  · rw [List.mem_singleton.mp howner]
    exact hholds

theorem isRegistered_registerAll (options : Options) {d : Document}
    (hkinds : ∀ decl ∈ d.entities, ∀ kind, EntityKind.decode decl.kind = .ok kind → admits kind) :
    IsRegistered admits (registerAll { atlas := .empty options } d).value.1
      (registerAll { atlas := .empty options } d).value.2 := by
  have hstart : IsRegistered admits { atlas := .empty options } [] :=
    ⟨.empty admits options, by simp, rfl⟩
  unfold registerAll
  rw [Noted.value_foldlM]
  refine List.foldlRecOn (motive := fun state : Progress × List Declared =>
    IsRegistered admits state.1 state.2) d.entities _ hstart ?_
  intro state hstate decl hdecl
  exact isRegistered_registerOne hstate (hkinds decl hdecl)

/-! ## Scopes and members -/

theorem IsRegistered.of_atlas {progress' : Progress} (h : IsRegistered admits progress declared)
    (hunlinked : progress'.atlas.IsUnlinked admits)
    (hsize : progress.atlas.entities.size ≤ progress'.atlas.entities.size)
    (hsummary : progress'.summary.unresolvedBases = progress.summary.unresolvedBases) :
    IsRegistered admits progress' declared :=
  ⟨hunlinked, fun owner howner => (h.declared owner howner).mono hsize,
    hsummary.trans h.unresolvedBases⟩

theorem IsRegistered.addScopes (hadmits : admits .namespaceKind)
    (h : IsRegistered admits progress declared) :
    IsRegistered admits (Build.addScopes progress) declared := by
  refine addScopes_kept (P := fun p => IsRegistered admits p declared) (fun p scope hp => ?_) h
  obtain ⟨hregistered, -⟩ := hp.isUnlinked.register scope hadmits {}
  refine hp.of_atlas ?_ ?_ rfl
  · exact hregistered.modifyEntity _ fun e he =>
      ⟨he.kind, he.isClass, he.isUsedOnly, he.outer, he.lineage, he.used⟩
  · unfold addScope
    rw [size_modifyEntity]
    exact size_register_le p.atlas scope .namespaceKind {}

theorem size_setOuter (a : Atlas) (inner outer : EntityId) :
    (a.setOuter inner outer).entities.size = a.entities.size := by
  unfold Atlas.setOuter
  split
  · rfl
  · split
    · rw [size_modifyEntity, size_modifyEntity]
    · rfl

theorem IsRegistered.linkScopes (h : IsRegistered admits progress declared) :
    IsRegistered admits (Build.linkScopes progress) declared := by
  unfold Build.linkScopes
  dsimp only
  generalize hpairs : ((progress.atlas.entities.toList.filter fun e =>
    !e.isTemplateInstance).filterMap fun e => _) = pairs
  -- Each entity goes into a scope that is found by its name.
  have houter : ∀ pair ∈ pairs, progress.atlas.Holds pair.2 := by
    intro pair hpair
    rw [← hpairs] at hpair
    obtain ⟨e, -, hscope⟩ := List.mem_filterMap.mp hpair
    obtain ⟨outer, hfind, rfl⟩ := Option.map_eq_some_iff.mp hscope
    obtain ⟨name, -, hfind⟩ := Option.bind_eq_some_iff.mp hfind
    exact h.isUnlinked.names name outer hfind
  have hlinked := List.foldlRecOn (motive := fun a : Atlas =>
      a.IsUnlinked admits ∧ a.entities.size = progress.atlas.entities.size) pairs
    (fun a (pair : EntityId × EntityId) => a.setOuter pair.1 pair.2)
    ⟨h.isUnlinked, rfl⟩ (fun a ha pair hpair =>
      ⟨ha.1.setOuter ((houter pair hpair).mono (Nat.le_of_eq ha.2.symm)),
        (size_setOuter a pair.1 pair.2).trans ha.2⟩)
  exact h.of_atlas hlinked.1 (Nat.le_of_eq hlinked.2.symm) rfl

theorem sharesSkeleton_addMember (owner : Declared) (progress : Progress) (decl : MemberDecl) :
    progress.atlas.SharesSkeleton (addMember owner progress decl).value.atlas ∧
      (addMember owner progress decl).value.summary.unresolvedBases =
        progress.summary.unresolvedBases := by
  refine addMember_kept (P := fun p => progress.atlas.SharesSkeleton p.atlas ∧
    p.summary.unresolvedBases = progress.summary.unresolvedBases) (fun m _ => ?_) ⟨.refl _, rfl⟩
  have hadded := SharesSkeleton.addMember progress.atlas (some owner.1) m
  exact ⟨⟨hadded, rfl⟩, fun _ hfiled => ⟨hadded.trans (.insertMember hfiled), rfl⟩⟩

theorem sharesSkeleton_addMembers (progress : Progress) (owners : List Declared) :
    progress.atlas.SharesSkeleton (addMembers progress owners).value.atlas :=
  addMembers_kept (P := fun p => progress.atlas.SharesSkeleton p.atlas)
    (fun owner p decl hp => hp.trans (sharesSkeleton_addMember owner p decl).1) owners (.refl _)

theorem IsRegistered.addMembers {admits : EntityKind → Prop} {progress : Progress}
    {declared : List Declared} (h : IsRegistered admits progress declared)
    (owners : List Declared) :
    IsRegistered admits (Build.addMembers progress owners).value declared := by
  refine addMembers_kept (P := fun p => IsRegistered admits p declared)
    (fun owner p decl hp => ?_) owners h
  obtain ⟨hshares, hsummary⟩ := sharesSkeleton_addMember owner p decl
  exact hp.of_atlas (hp.isUnlinked.of_agrees hshares.ties) (Nat.le_of_eq hshares.ties.size.symm)
    hsummary

/-! ## The first part of a build -/

theorem isRegistered_prepare (hadmits : admits .namespaceKind) (options : Options) {d : Document}
    (hkinds : ∀ decl ∈ d.entities, ∀ kind, EntityKind.decode decl.kind = .ok kind → admits kind) :
    IsRegistered admits (prepare (.empty options) d).value.1 (prepare (.empty options) d).value.2 :=
  (((isRegistered_registerAll options hkinds).addScopes hadmits).linkScopes).addMembers _

end Build

end SymbolAtlas
