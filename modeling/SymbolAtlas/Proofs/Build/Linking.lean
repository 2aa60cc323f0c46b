import SymbolAtlas.Proofs.Build.Preparation

/-!
# Linking bases

While the bases of declarations are looked up, an atlas gets edges, and placeholders for the classes
that nobody declares. Everything else stays as it was before: scopes, formal parameters, and the
names that were there.
-/

set_option autoImplicit false

namespace SymbolAtlas

variable {accept : Entity → Bool} {id : EntityId} {child : EntityId}

/-- The same lineage, perhaps with other bases. -/
def Lineage.IsRebased (l l' : Lineage) : Prop :=
  l' = { l with bases := l'.bases }

/-- The standing of a class that is there because something refers to it. -/
structure Standing.IsPlaceholder (s : Standing) : Prop where
  kind : s.kind = .classKind
  outer : s.outer = none
  isArtificial : s.isArtificial = true
  isUsedOnly : s.isUsedOnly = true

namespace Atlas

theorem usedNamespaces_eq (a : Atlas) (id : EntityId) :
    a.usedNamespaces id = (((a.entity? id).bind (·.used?)).map (·.values)).getD [] := by
  unfold usedNamespaces directives namespace?
  cases a.entity? id with
  | none => rfl
  | some e =>
    rw [Option.bind_some, Option.bind_some, Entity.used?]
    cases e.namespace? <;> rfl

theorem Agrees.usedNamespaces_eq {a b : Atlas} (h : Agrees Entity.ties a b) (id : EntityId) :
    b.usedNamespaces id = a.usedNamespaces id := by
  rw [Atlas.usedNamespaces_eq, Atlas.usedNamespaces_eq, read_of_map_eq h.2
    (f := fun x => x.bind (·.used?)) (fun _ _ => congrArg Prod.snd) id]

theorem usedNamespaces_modifyClass (a : Atlas) (id id' : EntityId) (f : ClassBody → ClassBody) :
    (a.modifyClass id f).usedNamespaces id' = a.usedNamespaces id' := by
  rw [usedNamespaces_eq, usedNamespaces_eq, modifyClass,
    a.read_modifyEntity_eq id id' (r := fun x => x.bind (·.used?)) fun e => e.used?_modifyClass f]

/-- The atlas `a` is `a₀` with placeholders and edges. -/
structure IsStubbed (a₀ a : Atlas) : Prop where
  size : a₀.entities.size ≤ a.entities.size
  standing : ∀ id, id.slot < a₀.entities.size → a.standing? id = a₀.standing? id
  lineage : ∀ id, id.slot < a₀.entities.size →
    Option.Rel Lineage.IsRebased (a₀.lineage? id) (a.lineage? id)
  stub : ∀ id, a₀.entities.size ≤ id.slot → id.slot < a.entities.size →
    a.lineage? id = some .alone ∧ ∃ s, a.standing? id = some s ∧ s.IsPlaceholder
  names : ∀ name id, a₀.find? name = some id → a.find? name = some id
  found : ∀ name id, a.find? name = some id →
    a₀.find? name = some id ∨ a.Holds id ∧ a₀.entities.size ≤ id.slot
  used : ∀ id, a.usedNamespaces id = []
  leadsOn : a.LeadsOn

theorem IsUnlinked.isStubbed {admits : EntityKind → Prop} {a : Atlas} (h : a.IsUnlinked admits) :
    a.IsStubbed a where
  size := Nat.le_refl _
  standing _ _ := rfl
  lineage id _ := by
    cases a.lineage? id with
    | none => exact .none
    | some l => exact .some rfl
  stub id hid hlt := absurd hlt (Nat.not_lt.mpr hid)
  names _ _ hname := hname
  found _ _ hname := .inl hname
  used id := by
    rw [usedNamespaces_eq]
    cases he : a.entity? id with
    | none => rfl
    | some e =>
      cases hu : e.used? with
      | none => simp [hu]
      | some u =>
        obtain rfl := (h.entities id e he).used u hu
        simp only [Option.bind_some, hu, Option.map_some, Option.getD_some]
        rfl
  leadsOn id edge hedge := by
    rw [bases_eq_lineage?] at hedge
    cases hl : a.lineage? id with
    | none => simp [hl] at hedge
    | some l =>
      unfold lineage? at hl
      obtain ⟨e, he, hl'⟩ := Option.bind_eq_some_iff.mp hl
      have halone := (h.entities id e he).lineage l hl'
      rw [← lineage?] at hl
      rw [hl, halone] at hedge
      simp [Lineage.alone] at hedge

namespace IsStubbed

variable {a₀ a : Atlas}

theorem holds {admits : EntityKind → Prop} (h : a₀.IsStubbed a) (h₀ : a₀.IsUnlinked admits)
    {name : String} (hfind : a.find? name = some id) : a.Holds id := by
  rcases h.found name id hfind with hfind | ⟨hholds, -⟩
  · exact (h₀.names name id hfind).mono h.size
  · exact hholds

end IsStubbed

end Atlas

namespace Build

open Atlas

/-! ## Placeholders -/

theorem addPlaceholder_eq (a : Atlas) (name : String) :
    ∃ (name' : String) (names' : Dict EntityId),
      (names' = a.names ∨
        a.find? name' = none ∧ names' = a.names.insert name' (.ofSlot a.entities.size)) ∧
      addPlaceholder a name =
        ({ (a.allocate name' .classKind {}).1.modifyEntity (.ofSlot a.entities.size) fun e =>
            { e with flags.isArtificial := true, flags.isUsedOnly := true } with names := names' },
          .ofSlot a.entities.size) := by
  unfold addPlaceholder
  dsimp only
  generalize String.ofList (dropGlobalMarks name.toList) = name'
  cases hfind : a.find? name' with
  | some id => exact ⟨name', a.names, .inl rfl, rfl⟩
  | none =>
    refine ⟨name', a.names.insert name' (.ofSlot a.entities.size), .inr ⟨hfind, rfl⟩, ?_⟩
    unfold register
    rw [hfind]
    rfl

section Placeholder

variable (a : Atlas) (name : String)

theorem addPlaceholder_id : (addPlaceholder a name).2 = .ofSlot a.entities.size := by
  obtain ⟨name', names', -, heq⟩ := addPlaceholder_eq a name
  rw [heq]

theorem size_addPlaceholder :
    (addPlaceholder a name).1.entities.size = a.entities.size + 1 := by
  obtain ⟨name', names', -, heq⟩ := addPlaceholder_eq a name
  rw [heq]
  exact (size_modifyEntity _ _ _).trans (a.size_allocate name' .classKind {})

theorem exists_placeholder :
    ∃ e : Entity, e.standing.IsPlaceholder ∧ e.lineage? = some .alone ∧ e.used? = none ∧
      ∀ id, (addPlaceholder a name).1.entity? id =
        if id.slot = a.entities.size then some e else a.entity? id := by
  obtain ⟨name', names', -, heq⟩ := addPlaceholder_eq a name
  have hread (id : EntityId) : (addPlaceholder a name).1.entity? id =
      ((a.allocate name' .classKind {}).1.modifyEntity (.ofSlot a.entities.size) fun e =>
        { e with flags.isArtificial := true, flags.isUsedOnly := true }).entity? id := by
    rw [heq]
    rfl
  let declared := Entity.declare (.ofSlot a.entities.size) name' .classKind {}
    a.options.inlineSimpleStruct a.options.allowSubGrouping
  refine ⟨{ declared with flags.isArtificial := true, flags.isUsedOnly := true },
    ⟨rfl, rfl, rfl, rfl⟩, rfl, rfl, fun id => ?_⟩
  rw [hread, entity?_modifyEntity, entity?_allocate, EntityId.slot_ofSlot]
  by_cases hid : id.slot = a.entities.size
  · rw [if_pos hid, if_pos hid, if_pos hid.symm, Option.map_some]
  · rw [if_neg hid, if_neg hid, if_neg (Ne.symm hid)]

theorem find?_addPlaceholder (q : String) :
    (addPlaceholder a name).1.find? q = a.find? q ∨
      a.find? q = none ∧ (addPlaceholder a name).1.find? q = some (.ofSlot a.entities.size) := by
  obtain ⟨name', names', hnames, heq⟩ := addPlaceholder_eq a name
  have hread : (addPlaceholder a name).1.find? q = names'.get? q := by
    rw [heq]
    rfl
  rw [hread]
  rcases hnames with rfl | ⟨hfree, rfl⟩
  · exact .inl rfl
  · rw [Dict.get?_insert]
    split
    · next hq =>
      subst hq
      exact .inr ⟨hfree, rfl⟩
    · exact .inl rfl

end Placeholder

theorem bases_addPlaceholder (a : Atlas) (name : String) (id : EntityId) :
    (addPlaceholder a name).1.bases id = a.bases id := by
  obtain ⟨e, -, halone, -, hentity⟩ := exists_placeholder a name
  rw [bases_eq_lineage?, bases_eq_lineage?, lineage?, hentity, lineage?]
  split
  · next hid =>
    have hnone : a.entity? id = none := Array.getElem?_eq_none (Nat.le_of_eq hid.symm)
    rw [hnone, Option.bind_some, halone]
    rfl
  · rfl

theorem continues_addPlaceholder (a : Atlas) (name : String) :
    a.Continues (addPlaceholder a name).1 := by
  obtain ⟨e, -, -, -, hentity⟩ := exists_placeholder a name
  have hold {id : EntityId} (hid : id.slot < a.entities.size) :
      (addPlaceholder a name).1.entity? id = a.entity? id := by
    rw [hentity, if_neg (Nat.ne_of_lt hid)]
  constructor
  · intro id s hs
    refine ⟨s, ?_, rfl, rfl, fun hs => hs⟩
    rw [← hs, standing?, hold (slot_lt_of_standing? hs), standing?]
  · intro id l hl
    refine ⟨l, ?_, List.prefix_rfl⟩
    rw [← hl, lineage?, hold (slot_lt_of_lineage? hl), lineage?]

end Build

namespace Atlas.IsStubbed

variable {a₀ a : Atlas}

open Build

theorem addPlaceholder (h : a₀.IsStubbed a) (name : String) :
    a₀.IsStubbed (Build.addPlaceholder a name).1 := by
  obtain ⟨e, hplaceholder, halone, hused, hentity⟩ := exists_placeholder a name
  have hsize := size_addPlaceholder a name
  have hsame {id : EntityId} (hid : id.slot ≠ a.entities.size) :
      (Build.addPlaceholder a name).1.entity? id = a.entity? id := by
    rw [hentity, if_neg hid]
  have hnew {id : EntityId} (hid : id.slot = a.entities.size) :
      (Build.addPlaceholder a name).1.entity? id = some e := by
    rw [hentity, if_pos hid]
  refine ⟨Nat.le_trans h.size (hsize ▸ Nat.le_succ _), fun id hid => ?_, fun id hid => ?_,
    fun id hid hlt => ?_, fun q id hfind => ?_, fun q id hfind => ?_, fun id => ?_,
    h.leadsOn.of_bases (bases_addPlaceholder a name)⟩
  · rw [standing?, hsame (Nat.ne_of_lt (Nat.lt_of_lt_of_le hid h.size))]
    exact h.standing id hid
  · have hread : (Build.addPlaceholder a name).1.lineage? id = a.lineage? id := by
      rw [lineage?, hsame (Nat.ne_of_lt (Nat.lt_of_lt_of_le hid h.size)), lineage?]
    rw [hread]
    exact h.lineage id hid
  · by_cases hid' : id.slot = a.entities.size
    · rw [lineage?, standing?, hnew hid']
      exact ⟨halone, _, rfl, hplaceholder⟩
    · rw [lineage?, standing?, hsame hid']
      exact h.stub id hid (by omega)
  · rcases find?_addPlaceholder a name q with hread | ⟨hnone, -⟩
    · rw [hread]
      exact h.names q id hfind
    · rw [h.names q id hfind] at hnone
      cases hnone
  · rcases find?_addPlaceholder a name q with hread | ⟨-, hread⟩
    · rw [hread] at hfind
      rcases h.found q id hfind with hfind | ⟨hholds, hid⟩
      · exact .inl hfind
      · exact .inr ⟨hholds.mono (by omega), hid⟩
    · rw [hread] at hfind
      cases hfind
      exact .inr ⟨holds_ofSlot (by omega), h.size⟩
  · rw [Atlas.usedNamespaces_eq]
    by_cases hid : id.slot = a.entities.size
    · rw [hnew hid, Option.bind_some, hused]
      rfl
    · rw [hsame hid, ← Atlas.usedNamespaces_eq]
      exact h.used id

theorem template (h : a₀.IsStubbed a) (hid : a.Holds id)
    (htemplate : (a.class? id).any (·.isTemplate) = true) :
    a₀.Holds id ∧ ∃ l, a₀.lineage? id = some l ∧ l.formals ≠ [] := by
  rw [any_isTemplate_eq] at htemplate
  obtain ⟨l, hl, hformals⟩ := (Option.any_eq_true _ _).mp htemplate
  have hne : l.formals ≠ [] := by simpa using hformals
  by_cases hslot : id.slot < a₀.entities.size
  · obtain ⟨l₀, hl₀, hrebased⟩ := exists_of_rel_right (h.lineage id hslot) hl
    refine ⟨⟨hid.1, ?_⟩, l₀, hl₀, ?_⟩
    · unfold EntityId.slot at hslot
      omega
    · rw [hrebased] at hne
      exact hne
  · obtain ⟨halone, -⟩ := h.stub id (Nat.not_lt.mp hslot) hid.slot_lt
    obtain rfl := Option.some.inj (halone.symm.trans hl)
    exact absurd rfl hne

theorem linkBase (h : a₀.IsStubbed a) (hchild : a₀.Holds child) {edge : BaseEdge}
    (htarget : a.Holds edge.target) (hself : edge.target ≠ child) :
    a₀.IsStubbed (a.linkBase child edge).value := by
  have hslot : edge.target.slot ≠ child.slot := fun hslot => hself (htarget.eq_of_slot hchild hslot)
  have hsize := a.size_linkBase child edge
  have hfind (q : String) : (a.linkBase child edge).value.find? q = a.find? q := by
    rw [find?, (a.frame_linkBase child edge).2.1, find?]
  refine ⟨hsize ▸ h.size, fun id hid => ?_, fun id hid => ?_, fun id hid hlt => ?_,
    fun q id hq => ?_, fun q id hq => ?_, fun id => ?_, h.leadsOn.linkBase hslot⟩
  · rw [standing?_linkBase]
    exact h.standing id hid
  · rw [a.lineage?_linkBase hself]
    have hrel := h.lineage id hid
    generalize a₀.lineage? id = l₀ at hrel
    generalize a.lineage? id = l at hrel
    cases hrel with
    | none => split <;> exact .none
    | some hrebased =>
      split
      · refine .some ?_
        rw [Lineage.IsRebased, hrebased]
      · exact .some hrebased
  · rw [standing?_linkBase, a.lineage?_linkBase hself, if_neg]
    · exact h.stub id hid (hsize ▸ hlt)
    · have hlt' := hchild.slot_lt
      omega
  · rw [hfind]
    exact h.names q id hq
  · rw [hfind] at hq
    rcases h.found q id hq with hq | ⟨hholds, hid⟩
    · exact .inl hq
    · exact .inr ⟨hholds.mono (Nat.le_of_eq hsize.symm), hid⟩
  · rw [(a.agrees_linkBase hself).usedNamespaces_eq, usedNamespaces_modifyClass]
    exact h.used id

end Atlas.IsStubbed

/-! ## One base -/

theorem Atlas.resolve?_cases {a : Atlas} {scope : Option EntityId} {name : String}
    (h : a.resolve? scope name accept = some id) :
    (∃ rest, Text.after? [':', ':'] (Text.trimmed name).toList = some rest ∧
      a.findAccepted? accept (String.ofList rest) = some id) ∨
    Text.after? [':', ':'] (Text.trimmed name).toList = none ∧
      ((∃ outer ∈ a.scopeChain scope, a.findAccepted? accept
          (QualifiedName.inScope (a.name outer) (Text.trimmed name)) = some id) ∨
        a.findAccepted? accept (Text.trimmed name) = some id ∨
        ∃ used ∈ (a.scopeChain scope).flatMap a.usedNamespaces, a.findAccepted? accept
          (QualifiedName.inScope (a.name used) (Text.trimmed name)) = some id) := by
  unfold resolve? at h
  dsimp only at h
  split at h
  · next rest hrest => exact .inl ⟨rest, hrest, h⟩
  · next hnone =>
    refine .inr ⟨hnone, ?_⟩
    rcases Option.or_eq_some_iff.mp h with h | ⟨-, h⟩
    · exact .inl (List.exists_of_findSome?_eq_some h)
    · rcases Option.or_eq_some_iff.mp h with h | ⟨-, h⟩
      · exact .inr (.inl h)
      · exact .inr (.inr (List.exists_of_findSome?_eq_some h))

theorem Atlas.find?_of_findAccepted? {a : Atlas} {name : String}
    (h : a.findAccepted? accept name = some id) :
    a.find? name = some id ∧ (a.entity? id).any accept = true := by
  exact Option.filter_eq_some_iff.mp h

theorem Atlas.find?_of_resolve? {a : Atlas} {scope : Option EntityId} {name : String}
    (h : a.resolve? scope name accept = some id) :
    ∃ name', a.find? name' = some id ∧ (a.entity? id).any accept = true := by
  rcases resolve?_cases h with ⟨rest, -, hfind⟩ | ⟨-, ⟨outer, -, hfind⟩ | hfind | ⟨used, -, hfind⟩⟩
  all_goals exact ⟨_, find?_of_findAccepted? hfind⟩

namespace Build

open Atlas

variable {state : Progress × List PendingInstance}

/-- What is known while bases are linked: `a₀` is the atlas before. A base that is put off is a
declared template, which a declared entity is to be derived from. -/
structure IsLinking (a₀ : Atlas) (progress : Progress) (pending : List PendingInstance) : Prop where
  isStubbed : a₀.IsStubbed progress.atlas
  count : progress.summary.unresolvedBases + a₀.entities.size = progress.atlas.entities.size
  pending : ∀ p ∈ pending, a₀.Holds p.child ∧ a₀.Holds p.edge.target ∧
    ∃ l, a₀.lineage? p.edge.target = some l ∧ l.formals ≠ []

variable {admits : EntityKind → Prop} {a₀ : Atlas} {progress : Progress}
  {pending : List PendingInstance}

theorem IsRegistered.isLinking {declared : List Declared}
    (h : IsRegistered admits progress declared) : IsLinking progress.atlas progress [] := by
  refine ⟨h.isUnlinked.isStubbed, ?_, by simp⟩
  rw [h.unresolvedBases, Nat.zero_add]

theorem isLinking_findBase (h₀ : a₀.IsUnlinked admits) (h : IsLinking a₀ progress pending)
    (scope : Option EntityId) (name : String) (decl : EntityDecl) :
    IsLinking a₀ (findBase progress scope name decl).value.1 pending ∧
      (findBase progress scope name decl).value.1.atlas.Holds
        (findBase progress scope name decl).value.2 := by
  unfold findBase
  split
  · next id hresolve =>
    refine ⟨h, ?_⟩
    have hfound : ∃ q, progress.atlas.findAccepted? (·.isClass) q = some id := by
      rcases resolve?_cases hresolve with ⟨rest, -, hfind⟩ | ⟨-, hfind⟩
      · exact ⟨_, hfind⟩
      · rcases hfind with ⟨outer, -, hfind⟩ | hfind | ⟨used, -, hfind⟩
        · exact ⟨_, hfind⟩
        · exact ⟨_, hfind⟩
        · exact ⟨_, hfind⟩
    obtain ⟨q, hq⟩ := hfound
    exact h.isStubbed.holds h₀ (find?_of_findAccepted? hq).1
  · have hsize := size_addPlaceholder progress.atlas name
    have hcount := h.count
    refine ⟨⟨h.isStubbed.addPlaceholder name, ?_, h.pending⟩, ?_⟩
    · show progress.summary.unresolvedBases + 1 + a₀.entities.size =
        (addPlaceholder progress.atlas name).1.entities.size
      omega
    · show (addPlaceholder progress.atlas name).1.Holds (addPlaceholder progress.atlas name).2
      rw [addPlaceholder_id]
      exact holds_ofSlot (by omega)

theorem isLinking_addEdge (h : IsLinking a₀ progress pending) (hchild : a₀.Holds child)
    {edge : BaseEdge} (htarget : progress.atlas.Holds edge.target) :
    IsLinking a₀ (addEdge progress child edge).value pending := by
  unfold addEdge
  split
  · exact h
  · next hself =>
    refine ⟨h.isStubbed.linkBase hchild htarget hself, ?_, h.pending⟩
    exact h.count.trans (progress.atlas.size_linkBase child edge).symm

/-- The step lemma for the bases of declarations. -/
theorem isLinking_addBase (h₀ : a₀.IsUnlinked admits) (h : IsLinking a₀ state.1 state.2)
    (hchild : a₀.Holds child) (decl : EntityDecl) (scope : Option EntityId) (formals : List String)
    (base : BaseDecl) : IsLinking a₀ (addBase child decl scope formals state base).value.1
      (addBase child decl scope formals state base).value.2 := by
  unfold addBase
  rw [Noted.value_bind]
  split
  · exact h
  · obtain ⟨name, spec⟩ := QualifiedName.cutTemplateArguments base.name
    have hfound := isLinking_findBase h₀ h scope name decl
    dsimp only
    rw [Noted.value_bind]
    generalize (findBase state.1 scope name decl).value = found at hfound
    obtain ⟨hfound, hholds⟩ := hfound
    split
    · next hput =>
      have htemplate : (found.1.atlas.class? found.2).any (·.isTemplate) = true := by
        simp only [Bool.and_eq_true] at hput
        exact hput.1.2
      refine ⟨hfound.isStubbed, hfound.count, fun p hp => ?_⟩
      rcases List.mem_append.mp hp with hp | hp
      · exact hfound.pending p hp
      · rw [List.mem_singleton.mp hp]
        obtain ⟨hdeclared, hformals⟩ := hfound.isStubbed.template hholds htemplate
        exact ⟨hchild, hdeclared, hformals⟩
    · exact isLinking_addEdge hfound hchild hholds

theorem isLinking_addBasesOf (h₀ : a₀.IsUnlinked admits) (h : IsLinking a₀ state.1 state.2)
    {owner : Declared} (howner : a₀.Holds owner.1) :
    IsLinking a₀ (addBasesOf state owner).value.1 (addBasesOf state owner).value.2 := by
  unfold addBasesOf
  split
  · exact Noted.foldlM_kept
      (P := fun state : Progress × List PendingInstance => IsLinking a₀ state.1 state.2)
      (fun state base hstate => isLinking_addBase h₀ hstate howner owner.2 _ _ base) _ h
  · exact h

theorem IsRegistered.isLinking_foldlM {declared : List Declared}
    (h : IsRegistered admits progress declared) :
    IsLinking progress.atlas (declared.foldlM addBasesOf (progress, [])).value.1
      (declared.foldlM addBasesOf (progress, [])).value.2 := by
  rw [Noted.value_foldlM]
  refine List.foldlRecOn (motive := fun state : Progress × List PendingInstance =>
    IsLinking progress.atlas state.1 state.2) declared _ h.isLinking ?_
  intro state hstate owner howner
  exact isLinking_addBasesOf h.isUnlinked hstate (h.declared owner howner)

end Build

end SymbolAtlas
