import SymbolAtlas.Build.Run
import SymbolAtlas.Proofs.Atlas.Frame

/-!
# What the phases of a build keep

The phases of a build come down to a few operations of the atlas. What each of these keeps, the
phases keep.
-/

set_option autoImplicit false

namespace SymbolAtlas.Build

variable {owner : Declared} {decl : EntityDecl} {child : EntityId} {declared : List Declared}

open Atlas

variable {P : Progress → Prop} {progress : Progress}

/-! ## Declarations -/

theorem declareFormals_kept {P : Atlas → Prop} {a : Atlas} {id : EntityId}
    (hset : ∀ {b}, a.setFormals id decl.formals = .ok b → P b) (h : P a) :
    P (declareFormals a id decl).value := by
  unfold declareFormals
  split
  · exact h
  · split
    · next hb => exact hset hb
    · exact h

theorem registerOne_kept {P : Progress × List Declared → Prop} {state : Progress × List Declared}
    (hadd : ∀ kind p, EntityKind.decode decl.kind = .ok kind →
      (protectionOf decl.name decl.protection).value = some p →
      let added := (registerAs state.1.atlas decl kind p).value
      P ({ state.1 with atlas := added.1 }, state.2 ++ [(added.2, decl)]))
    (hskip : P ({ state.1 with summary.skippedEntities := state.1.summary.skippedEntities + 1 },
      state.2)) :
    P (registerOne state decl).value := by
  unfold registerOne
  dsimp only
  split
  · exact hskip
  · next kind hkind =>
    rw [Noted.value_bind]
    split
    · exact hskip
    · next p hp => exact hadd kind p hkind hp

theorem addScopes_kept (hone : ∀ p scope, P p → P (addScope p scope)) (h : P progress) :
    P (addScopes progress) :=
  foldl_kept (fun _ _ hp => foldl_kept hone _ hp) _ h

theorem addMember_kept {decl : MemberDecl}
    (hadd : ∀ m, (memberOf owner.2 decl).value = some m →
      let added := progress.atlas.addMember (some owner.1) m
      P { progress with atlas := added.1 } ∧ ∀ filed, added.1.insertMember owner.1 added.2 =
        .ok filed → P { progress with atlas := filed.value })
    (hskip : P { progress with summary.skippedMembers := progress.summary.skippedMembers + 1 }) :
    P (addMember owner progress decl).value := by
  unfold addMember
  rw [Noted.value_bind]
  split
  · exact hskip
  · next m hm =>
    dsimp only
    split
    · next filed hfiled => exact (hadd m hm).2 filed hfiled
    · exact (hadd m hm).1

theorem addMembers_kept (hone : ∀ owner p decl, P p → P (addMember owner p decl).value)
    (declared : List Declared) (h : P progress) : P (addMembers progress declared).value :=
  Noted.foldlM_kept (fun _ owner hp => Noted.foldlM_kept (hone owner) _ hp) _ h

/-! ## Bases -/

/-- What is kept when bases are linked: a property of the progress, and one of the numbers of the
classes that take part. -/
structure LinksKeep (P : Progress → Prop) (Q : Progress → EntityId → Prop) : Prop where
  find : ∀ {p} scope name decl, P p →
    let found := (findBase p scope name decl).value
    Carries P Q p found.1 ∧ Q found.1 found.2
  link : ∀ {p child edge}, P p → Q p child → Q p edge.target → Carries P Q p { p with
    atlas := (p.atlas.linkBase child edge).value
    summary.baseEdges := p.summary.baseEdges + 1 }

/-- The properties are kept, and the bases that are put off are between such classes. -/
structure PutsOff (P : Progress → Prop) (Q : Progress → EntityId → Prop) (start : Progress)
    (state : Progress × List PendingInstance) : Prop where
  carries : Carries P Q start state.1
  pending : ∀ p ∈ state.2, Q state.1 p.child ∧ Q state.1 p.edge.target

namespace LinksKeep

variable {Q : Progress → EntityId → Prop} {state : Progress × List PendingInstance}

theorem addEdge (h : LinksKeep P Q) (edge : BaseEdge) (hp : P progress) (hchild : Q progress child)
    (htarget : Q progress edge.target) :
    Carries P Q progress (Build.addEdge progress child edge).value := by
  unfold Build.addEdge
  split
  · exact .refl hp
  · exact h.link hp hchild htarget

theorem addBase (h : LinksKeep P Q) (hs : PutsOff P Q progress state) (hchild : Q progress child)
    (decl : EntityDecl) (scope : Option EntityId) (formals : List String) (base : BaseDecl) :
    PutsOff P Q progress (Build.addBase child decl scope formals state base).value := by
  obtain ⟨hcarries, hpending⟩ := hs
  unfold Build.addBase
  rw [Noted.value_bind]
  split
  · exact ⟨hcarries, hpending⟩
  · next protection virtualness _ =>
    obtain ⟨name, spec⟩ := QualifiedName.cutTemplateArguments base.name
    obtain ⟨hfound, htarget⟩ := h.find scope name decl hcarries.holds
    dsimp only
    rw [Noted.value_bind]
    generalize (findBase state.1 scope name decl).value = found at hfound htarget
    -- A placeholder may have been added, which leaves what was put off before as it is.
    have hboth := hcarries.trans hfound
    have hkept := fun p hp => And.intro (hfound.mono (hpending p hp).1) (hfound.mono (hpending p hp).2)
    split
    · refine ⟨hboth, fun p hp => ?_⟩
      rcases List.mem_append.mp hp with hp | hp
      · exact hkept p hp
      · rw [List.mem_singleton.mp hp]
        exact ⟨hboth.mono hchild, htarget⟩
    · have hlinked := h.addEdge
        { target := found.2
          usedName := if name == found.1.atlas.name found.2 then none else some base.name
          protection, virtualness
          templateSpec := spec } hboth.holds (hboth.mono hchild) htarget
      exact ⟨hboth.trans hlinked, fun p hp =>
        ⟨hlinked.mono (hkept p hp).1, hlinked.mono (hkept p hp).2⟩⟩

theorem addBasesOf (h : LinksKeep P Q) (hs : PutsOff P Q progress state)
    (howner : ∀ q c, P q → q.atlas.class? owner.1 = some c → Q q owner.1) :
    PutsOff P Q progress (Build.addBasesOf state owner).value := by
  unfold Build.addBasesOf
  split
  · next e c he hc =>
    have hbased : PutsOff P Q state.1 (owner.2.bases.foldlM
        (Build.addBase owner.1 owner.2 e.outer (c.formals.map (·.name))) state).value :=
      Noted.foldlM_kept (P := PutsOff P Q state.1) (fun _ base hs' => h.addBase hs'
        (howner _ c hs.carries.holds hc) owner.2 _ _ base) _ ⟨.refl hs.carries.holds, hs.pending⟩
    exact ⟨hs.carries.trans hbased.carries, hbased.pending⟩
  · exact hs

theorem foldlM (h : LinksKeep P Q) (hp : P progress)
    (hdeclared : ∀ owner ∈ declared, ∀ q c, P q → q.atlas.class? owner.1 = some c → Q q owner.1) :
    PutsOff P Q progress (declared.foldlM Build.addBasesOf (progress, [])).value := by
  rw [Noted.value_foldlM]
  exact List.foldlRecOn declared _ ⟨.refl hp, fun p hp => nomatch hp⟩
    fun state hs owner howner => h.addBasesOf hs (hdeclared owner howner)

section Instances

variable (hmake : ∀ {p template spec made}, P p → Q p template →
  Atlas.instantiate p.atlas template spec = .ok made →
  Carries P Q p { p with atlas := made.value.1 } ∧ Q { p with atlas := made.value.1 } made.value.2.1)

include hmake

theorem addPending (h : LinksKeep P Q) (hp : P progress) {p : PendingInstance}
    (hchild : Q progress p.child) (htarget : Q progress p.edge.target) :
    Carries P Q progress (Build.addPending progress p).value := by
  unfold Build.addPending
  split
  · exact .refl hp
  · next made hmade =>
    obtain ⟨hmade, hinstance⟩ := hmake hp htarget hmade
    exact hmade.trans (h.addEdge _ hmade.holds (hmade.mono hchild) hinstance)

/-- What holds when all bases are looked up, and is kept whenever an instance of a class is made a
base of another class, is kept along. -/
theorem addBases (h : LinksKeep P Q) (hp : P progress)
    (hdeclared : ∀ owner ∈ declared, ∀ q c, P q → q.atlas.class? owner.1 = some c → Q q owner.1)
    {R : Progress → Prop} (hstart : R (declared.foldlM Build.addBasesOf (progress, [])).value.1)
    (hstep : ∀ {q p}, P q → Q q p.child → Q q p.edge.target → R q → R (Build.addPending q p).value)
      :
    P (Build.addBases progress declared).value ∧ R (Build.addBases progress declared).value := by
  unfold Build.addBases
  rw [Noted.value_bind]
  obtain ⟨hcarries, hpending⟩ := h.foldlM hp hdeclared
  generalize (declared.foldlM Build.addBasesOf (progress, [])).value = state
    at hcarries hpending hstart
  obtain ⟨linked, pending⟩ := state
  rw [Noted.value_foldlM]
  have hloop := List.foldlRecOn (motive := fun q : Progress => Carries P Q linked q ∧ R q)
    (((pending.partition (·.isFromTemplate)).1 ++ (pending.partition (·.isFromTemplate)).2))
    (fun q p => (Build.addPending q p).value) ⟨.refl hcarries.holds, hstart⟩ fun q hq p hp => by
      have hp' : p ∈ pending := by
        rw [List.partition_eq_filter_filter] at hp
        rcases List.mem_append.mp hp with hp | hp
        all_goals exact (List.mem_filter.mp hp).1
      have hchild := hq.1.mono (hpending p hp').1
      have htarget := hq.1.mono (hpending p hp').2
      exact ⟨hq.1.trans (h.addPending hmake hq.1.holds hchild htarget),
        hstep hq.1.holds hchild htarget hq.2⟩
  exact ⟨hloop.1.holds, hloop.2⟩

end Instances

theorem of_always
    (hadd : ∀ p name, P p → P { p with
      atlas := (addPlaceholder p.atlas name).1
      summary.unresolvedBases := p.summary.unresolvedBases + 1 })
    (hlink : ∀ p child edge, P p → P { p with
      atlas := (p.atlas.linkBase child edge).value
      summary.baseEdges := p.summary.baseEdges + 1 }) : LinksKeep P fun _ _ => True where
  find scope name decl hp := by
    refine ⟨⟨?_, fun _ => trivial⟩, trivial⟩
    unfold findBase
    split
    · exact hp
    · exact hadd _ name hp
  link hp _ _ := ⟨hlink _ _ _ hp, fun _ => trivial⟩

theorem addBases_of_always (h : LinksKeep P fun _ _ => True)
    (hmake : ∀ p template spec made, Atlas.instantiate p.atlas template spec = .ok made → P p →
      P { p with atlas := made.value.1 }) (hp : P progress) (declared : List Declared) :
    P (Build.addBases progress declared).value :=
  (h.addBases (fun hp _ hmade => ⟨⟨hmake _ _ _ _ hmade hp, fun _ => trivial⟩, trivial⟩) hp
    (fun _ _ _ _ _ _ => trivial) (R := fun _ => True) trivial fun _ _ _ _ => trivial).1

end LinksKeep

/-! ## Categories and using relations -/

theorem mergeCategoryOf_kept
    (hmerge : ∀ id merged, progress.atlas.mergeCategory id owner.1 = .ok merged →
      P { progress with
        atlas := merged.value
        summary.categoriesMerged := progress.summary.categoriesMerged + 1 })
    (h : P progress) : P (mergeCategoryOf progress owner).value := by
  unfold mergeCategoryOf
  dsimp only
  split
  · exact h
  · split
    · exact h
    · split
      · exact h
      · split
        · exact h
        · split
          · exact h
          · next merged hmerged => exact hmerge _ merged hmerged

/-- What counting a using relation and changing what namespaces use keep, adding the using relations
of a namespace keeps. -/
theorem addUsings_kept (hmissing : ∀ p, P p → P (missingUsing p))
    (hmodify : ∀ p id f, P p → P { p with atlas := p.atlas.modifyNamespace id f }) (owner : Declared)
    (h : P progress) : P (addUsings progress owner).value := by
  have hkept (p : Progress) (a : Atlas) (id : EntityId) (f : NamespaceBody → NamespaceBody)
      (ha : P { p with atlas := a }) : P { p with atlas := a.modifyNamespace id f } :=
    hmodify { p with atlas := a } id f ha
  have hnamespace (outer : Option EntityId) (p : Progress) (target : String) (hp : P p) :
      P (addUsedNamespace owner outer p target).value := by
    unfold addUsedNamespace
    dsimp only
    split
    · split
      · next hused => exact useNamespace_kept (hkept p) hused hp
      · exact hp
    · exact hmissing p hp
  have hdeclaration (p : Progress) (name : String) (hp : P p) :
      P (addUsedDeclaration owner p name).value := by
    unfold addUsedDeclaration
    split
    · split
      · next hused =>
        exact useDeclaration_kept (hkept p) hused hp
      · exact hp
    · exact hmissing p hp
  unfold addUsings
  split
  · exact h
  · next e _ =>
    split
    · exact Noted.foldlM_kept hdeclaration _ (Noted.foldlM_kept (hnamespace e.outer) _ h)
    · exact h

end SymbolAtlas.Build
