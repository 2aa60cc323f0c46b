import SymbolAtlas.Proofs.Atlas.Integrity

/-!
# Upkeep

The operations that file members, link entities, instantiate templates and merge categories keep an
atlas sound, and all records that it had, if they are given numbers of records.
-/

set_option autoImplicit false

namespace SymbolAtlas.Atlas

variable {a : Atlas} {edge : BaseEdge}

theorem forall_mem_insertDerived {P : BaseEdge → Prop} (a : Atlas) (hedge : P edge)
    {edges : List BaseEdge} (hedges : ∀ other ∈ edges, P other) :
    ∀ other ∈ a.insertDerived edge edges, P other := by
  induction edges with
  | nil => simpa [insertDerived] using hedge
  | cons other rest ih =>
    rw [List.forall_mem_cons] at hedges
    unfold insertDerived
    split
    · exact List.forall_mem_cons.mpr ⟨hedge, List.forall_mem_cons.mpr hedges⟩
    · exact List.forall_mem_cons.mpr ⟨hedges.1, ih hedges.2⟩

namespace IsSound

variable {id category : EntityId}

/-! ## Filing -/

theorem holdsMember_id (h : a.IsSound) {id : MemberId} {m : Member} (hm : a.member? id = some m) :
    a.HoldsMember m.id := by
  rw [h.memberIds id m hm]
  obtain ⟨hlt, -⟩ := Array.getElem?_eq_some_iff.mp hm
  exact ⟨Nat.succ_pos _, hlt⟩

theorem fileInClass (h : a.IsSound) (owner : EntityId) {id : MemberId} (hid : a.HoldsMember id)
    (p : Protection) (isListed : Bool) :
    a.GrowsSoundly (a.fileInClass owner id p isListed).value := by
  rcases a.fileInClass_cases owner id p isListed with heq | ⟨m, entry, hm, -, hentry, heq⟩ <;> rw [heq]
  · exact h.refl
  · have hsound : ∀ v ∈ entry, v.IsSound a := by
      intro v hv
      obtain ⟨-, rfl⟩ := hentry v hv
      exact ⟨h.holdsMember_id hm, fun id hid => by cases hid⟩
    refine h.modifyEntity owner (fun e => ?_) fun e he => ?_
    · unfold Entity.holding
      rw [Entity.badge_modifyClass]
      split
      · exact e.badge_filed _ id
      · rfl
    · refine Entity.IsSound.modifyClass ?_ fun c hc => hc.noting m hid hsound
      split
      · exact he.filed _ hid
      · exact he

theorem posting (h : a.IsSound) (owner : EntityId) (m : Member) {id : MemberId}
    (hid : a.HoldsMember id) : a.GrowsSoundly (a.modifyEntity owner (·.posting m id)) := by
  refine h.modifyEntity owner (fun e => ?_) fun e he => ?_
  · unfold Entity.posting
    split <;> exact e.badge_modifyNamespace _
  · have hlisted := he.modifyNamespace (f := fun n =>
      { n with members := n.members.append m.name id }) fun n hn =>
        { hn with members := hn.members.append m.name hid }
    unfold Entity.posting
    split
    · next topic _ =>
      exact hlisted.withSections ((hlisted.sections.file (.namespaceDecls topic) hid).file
        (.namespaceDocs topic) hid)
    · exact hlisted

theorem insertMember (h : a.IsSound) {owner : EntityId} {id : MemberId} (hid : a.HoldsMember id)
    {filed : Noted Atlas} (hfiled : a.insertMember owner id = .ok filed) :
    a.GrowsSoundly filed.value :=
  insertMember_kept (P := a.GrowsSoundly) hfiled (fun p => h.fileInClass owner hid p true)
    (fileInNamespace_kept (fun _ owner m hb => hb.trans (hb.isSound.posting owner m
      (hid.mono hb.keeps))) owner h.refl)

/-! ## Scopes, bases and using relations -/

section

variable (h : a.IsSound)

include h

theorem setOuter {inner outer : EntityId} (hinner : a.Holds inner) (houter : a.Holds outer) :
    a.GrowsSoundly (a.setOuter inner outer) := by
  unfold Atlas.setOuter
  split
  · exact h.refl
  · split
    · next e o he _ =>
      have hlinked : a.GrowsSoundly (a.modifyEntity inner fun e => { e with outer := some outer }) := by
        refine h.modifyEntity inner (fun e => rfl) fun e he => { he with outer := ?_ }
        simpa using houter
      refine hlinked.trans (hlinked.isSound.modifyEntity outer (fun o => ?_) fun o ho => ?_)
      · split <;> rfl
      · have henter : ∀ {P : EntityId → Prop} {ids : List EntityId}, P inner → (∀ id ∈ ids, P id) →
            ∀ id ∈ (if ids.contains inner then ids else ids ++ [inner]), P id := by
          intro P ids hnew hids id hid
          split at hid
          · exact hids id hid
          · rcases List.mem_append.mp hid with hid | hid
            · exact hids id hid
            · rw [List.mem_singleton.mp hid]
              exact hnew
        split
        · next hclass =>
          have hnew : a.HoldsClass inner := ⟨hinner.1, e, he, hclass⟩
          exact { ho with
            innerClasses := henter (hnew.mono hlinked.keeps) ho.innerClasses }
        · next hclass =>
          have hnew : a.HoldsNamespace inner := by
            refine ⟨hinner.1, e, he, ?_⟩
            rw [e.isNamespace_eq]
            simpa using hclass
          exact { ho with
            innerNamespaces := henter (hnew.mono hlinked.keeps) ho.innerNamespaces }
    · exact h.refl

theorem addBaseEdge (id : EntityId) (htarget : a.HoldsClass edge.target) :
    a.GrowsSoundly (a.modifyClass id fun c =>
      { c with bases := c.bases ++ [edge], isSimple := false }) := by
  refine h.modifyClass id fun c hc => { hc with bases := fun edge' hedge' => ?_ }
  rcases List.mem_append.mp hedge' with hedge' | hedge'
  · exact hc.bases edge' hedge'
  · rw [List.mem_singleton.mp hedge']
    exact htarget

theorem linkBase {child : EntityId} (hchild : a.HoldsClass child)
    (htarget : a.HoldsClass edge.target) : a.GrowsSoundly (a.linkBase child edge).value := by
  unfold Atlas.linkBase
  split
  · exact h.refl
  · have hlinked := h.addBaseEdge child htarget
    generalize a.modifyClass child _ = b at hlinked
    refine hlinked.trans ?_
    unfold linkDerived
    dsimp only
    split
    · exact hlinked.isSound.refl
    · split
      · exact hlinked.isSound.refl
      · exact hlinked.isSound.modifyClass _ fun c hc => { hc with
          derived := b.forall_mem_insertDerived (hchild.mono hlinked.keeps) hc.derived }

theorem setFormals {formals : List String} {b : Atlas} (hb : a.setFormals id formals = .ok b) :
    a.GrowsSoundly b := by
  obtain ⟨c, -, hb⟩ := Except.bind_eq_ok hb
  cases hb
  exact h.modifyClass id fun c hc => { hc with }

theorem useNamespace {target : EntityId} (htarget : a.Holds target) {b : Atlas}
    (hb : a.useNamespace id target = .ok b) : a.GrowsSoundly b := by
  obtain ⟨n, -, hb⟩ := Except.bind_eq_ok hb
  obtain ⟨n', hn', hb⟩ := Except.bind_eq_ok hb
  split at hb
  · cases hb
    exact h.refl
  · cases hb
    exact h.modifyNamespace id fun n hn =>
      { hn with usingDirectives := hn.usingDirectives.insertNew _ (htarget.holdsNamespace hn') }

theorem useDeclaration {name : String} {target : UsingTarget} (htarget : a.HoldsTarget target)
    {b : Atlas} (hb : a.useDeclaration id name target = .ok b) : a.GrowsSoundly b := by
  obtain ⟨n, -, hb⟩ := Except.bind_eq_ok hb
  cases hb
  exact h.modifyNamespace id fun n hn =>
    { hn with usingDeclarations := hn.usingDeclarations.insertNew name htarget }

end

/-! ## Template instances -/

theorem ofClass (h : a.IsSound) {c : ClassBody} (hc : a.class? id = some c) : c.IsSound a := by
  obtain ⟨e, he, hbody⟩ := (a.class?_eq_some_iff id c).mp hc
  exact (h.entities id e he).ofClass c hbody

theorem holdsMember_of_mem_ownMembers (h : a.IsSound) {m : MemberId} (hm : m ∈ a.ownMembers id) :
    a.HoldsMember m := by
  unfold ownMembers at hm
  split at hm
  · cases hm
  · next c hc =>
    obtain ⟨v, hv, rfl⟩ := List.mem_map.mp hm
    obtain ⟨views, hviews, hv⟩ := List.mem_flatten.mp (List.mem_of_mem_filter hv)
    obtain ⟨name, hname⟩ := (c.roster.mem_values_iff views).mp hviews
    exact ((h.ofClass hc).roster name views hname v hv).member

theorem copyMembers (h : a.IsSound) {instanceId : EntityId} (hinstance : a.Holds instanceId)
    (generic : EntityId) (spec : String) :
    a.GrowsSoundly (a.copyMembers instanceId generic spec).value := by
  refine GrowsSoundly.foldlM (fun b => b) (fun b hb source hsource => ?_) h.refl
  have hsource' := (h.holdsMember_of_mem_ownMembers hsource).mono hb.keeps
  unfold copyIntoInstance
  split
  · exact hb.isSound.refl
  · next m _ =>
    generalize a.instantiation generic spec = i
    have hcopy : { i.copyMember source m with owner := some instanceId }.IsSound b := by
      refine ⟨fun id hid => ?_, fun id hid => ?_, fun id hid => ?_, fun id hid => ?_⟩
      · cases hid
        exact hinstance.keeps hb.keeps
      · cases hid
        exact hsource'
      · cases hid
      · cases hid
    obtain ⟨hadded, hnew⟩ := hb.isSound.addMember _ _ hcopy
    exact hadded.trans (hadded.isSound.fileInClass instanceId hnew m.protection true)

/-- An instance without members refers to nothing but its template. -/
theorem withInstance (h : a.IsSound) {generic : EntityId} (hgeneric : a.HoldsClass generic)
    {master : Entity} (hmaster : a.entity? generic = some master) (key : String) :
    a.GrowsSoundly (a.withInstance generic master key) ∧
      (a.withInstance generic master key).HoldsClass (.ofSlot a.entities.size) := by
  have hkind : master.kind.isNamespaceLike = false := by
    obtain ⟨-, e, he, hclass⟩ := hgeneric
    obtain rfl := Option.some.inj (hmaster.symm.trans he)
    have hvariant := (h.entities generic master hmaster).isClass
    rw [hclass] at hvariant
    simpa using hvariant.symm
  have hallocated := h.allocate (Text.normalized (master.localName ++ key)) master.kind
    master.location
  have hnew := a.holdsClass_allocate (Text.normalized (master.localName ++ key)) hkind
    master.location
  -- The number is handed on through the steps that describe the instance and list it.
  unfold Atlas.withInstance
  dsimp only [Atlas.allocate] at hallocated hnew ⊢
  generalize ({ a with entities := _ } : Atlas) = b at hallocated hnew ⊢
  have hplaced : b.GrowsSoundly (b.modifyEntity (.ofSlot a.entities.size) fun e =>
      { e with
        language := master.language
        outer := master.outer
        flags.isHidden := master.flags.isHidden
        flags.isArtificial := master.flags.isArtificial }) := by
    refine hallocated.isSound.modifyEntity _ (fun e => rfl) fun e he => { he with outer := ?_ }
    exact fun id hid => ((h.entities generic master hmaster).outer id hid).keeps hallocated.keeps
  generalize b.modifyEntity _ _ = b₁ at hplaced ⊢
  have hmade : b₁.GrowsSoundly (b₁.modifyClass (.ofSlot a.entities.size) fun c =>
      { c with templateMaster := some generic }) := by
    refine hplaced.isSound.modifyClass _ fun c hc => { hc with templateMaster := ?_ }
    simpa using hgeneric.mono (hallocated.trans hplaced).keeps
  generalize b₁.modifyClass _ _ = b₂ at hmade ⊢
  have hnew₂ := hnew.mono (hplaced.trans hmade).keeps
  have hlisted : b₂.GrowsSoundly (b₂.modifyClass generic fun c =>
      { c with instances := c.instances.insert key (.ofSlot a.entities.size) }) :=
    hmade.isSound.modifyClass _ fun c hc =>
      { hc with instances := hc.instances.insert key hnew₂ }
  exact ⟨((hallocated.trans hplaced).trans hmade).trans hlisted, hnew₂.mono hlisted.keeps⟩

theorem addInstance (h : a.IsSound) {generic : EntityId} (hgeneric : a.HoldsClass generic)
    {master : Entity} (hmaster : a.entity? generic = some master) (key : String) :
    a.GrowsSoundly (a.addInstance generic master key).value.1 ∧
      (a.addInstance generic master key).value.1.HoldsClass
        (a.addInstance generic master key).value.2 := by
  obtain ⟨hgrows, hnew⟩ := h.withInstance hgeneric hmaster key
  have hcopied := hgrows.isSound.copyMembers hnew.holds generic key
  exact ⟨hgrows.trans hcopied, hnew.mono hcopied.keeps⟩

theorem holdsClass_genericOf (h : a.IsSound) {template : EntityId} (ht : a.HoldsClass template) :
    a.HoldsClass (a.genericOf template) := by
  unfold genericOf
  cases hc : a.class? template with
  | none => exact ht
  | some c =>
    cases hmaster : c.templateMaster with
    | none => simpa [hmaster] using ht
    | some master => simpa [hmaster] using (h.ofClass hc).templateMaster master hmaster

theorem instancesKeep (a : Atlas) : InstancesKeep (fun b => a.GrowsSoundly b) HoldsClass where
  isNew _ := trivial
  generic hb := hb.isSound.holdsClass_genericOf
  listed hb hc hid := (hb.isSound.ofClass hc).instances _ _ hid
  base := by
    intro b id edge hb hedge
    unfold bases at hedge
    cases hc : b.class? id with
    | none => simp [hc] at hedge
    | some c => exact (hb.isSound.ofClass hc).bases edge (by simpa [hc] using hedge)
  add hb ht hmaster _ _ := by
    obtain ⟨hadded, hnew⟩ := hb.isSound.addInstance (hb.isSound.holdsClass_genericOf ht) hmaster _
    exact ⟨⟨hb.trans hadded, fun hid => hid.mono hadded.keeps⟩, hnew⟩
  link hb hchild _ hparent := by
    have hlinked := hb.isSound.linkBase hchild hparent
    exact ⟨hb.trans hlinked, fun hid => hid.mono hlinked.keeps⟩

/-! ## Categories -/

theorem donateBases (h : a.IsSound) (hid : a.HoldsClass id) (extension : EntityId)
    {bases : List BaseEdge} (hbases : ∀ edge ∈ bases, a.HoldsClass edge.target) :
    a.GrowsSoundly (a.donateBases id extension bases) := by
  refine GrowsSoundly.foldl (fun b => b) (fun b hb edge hedge => ?_) h.refl
  have hgiven := hb.isSound.addBaseEdge id ((hbases edge hedge).mono hb.keeps)
  refine hgiven.trans (hgiven.isSound.modifyClass _ fun c hc => { hc with derived := ?_ })
  intro edge' hedge'
  obtain ⟨old, hold, rfl⟩ := List.mem_map.mp hedge'
  split
  · exact hid.mono (hb.trans hgiven).keeps
  · exact hc.derived old hold

theorem relate (h : a.IsSound) (hcategory : a.HoldsClass category) {own theirs : List View}
    (hown : ∀ v ∈ own, v.IsSound a) (htheirs : ∀ v ∈ theirs, v.IsSound a) :
    a.GrowsSoundly (a.relate category own theirs) := by
  unfold Atlas.relate
  split
  · next v w hv hw =>
    have hv' := (hown v (List.mem_of_head? hv)).member
    have hw' := (htheirs w (List.mem_of_head? hw)).member
    have hfirst : a.GrowsSoundly (a.modifyMember v.member fun m =>
        { m with category := some category, categoryRelation := some w.member }) := by
      refine h.modifyMember _ (fun m => ⟨rfl, rfl⟩) fun m hm =>
        { hm with category := ?_, categoryRelation := ?_ }
      · simpa using hcategory
      · simpa using hw'
    refine hfirst.trans (hfirst.isSound.modifyMember _ (fun m => ⟨rfl, rfl⟩) fun m hm =>
      { hm with categoryRelation := ?_ })
    simpa using hv'.mono hfirst.keeps
  · exact h.refl

theorem adoptView (h : a.IsSound) (hid : a.HoldsClass id) (hcategory : a.HoldsClass category)
    (isDetail : Bool) {view : View} (hview : view.IsSound a) :
    a.GrowsSoundly (a.adoptView id category isDetail view).1 ∧
      ∀ v ∈ (a.adoptView id category isDetail view).2,
        v.IsSound (a.adoptView id category isDetail view).1 := by
  unfold Atlas.adoptView
  split
  · exact ⟨h.refl, fun v hv => by cases hv⟩
  · next m hm =>
    have hmember := h.members _ m hm
    generalize hcopied : ({ m with
      category := some category
      categoryRelation := some view.member
      flags.isImplementationDetail := m.flags.isImplementationDetail || isDetail } : Member) = copy
    have hcopy : { copy with owner := some id }.IsSound a := by
      rw [← hcopied]
      refine ⟨?_, hmember.templateMaster, ?_, ?_⟩
      · simpa using hid.holds
      · simpa using hcategory
      · simpa using hview.member
    obtain ⟨hadded, hnew⟩ := h.addMember (some id) copy hcopy
    dsimp only
    generalize a.addMember (some id) copy = added at hadded hnew ⊢
    have hrelated : added.1.GrowsSoundly (added.1.modifyMember view.member fun m =>
        { m with categoryRelation := some added.2 }) := by
      refine hadded.isSound.modifyMember _ (fun m => ⟨rfl, rfl⟩) fun m hm =>
        { hm with categoryRelation := ?_ }
      simpa using hnew
    refine ⟨hadded.trans hrelated, fun v hv => ?_⟩
    cases hv
    exact ⟨hnew.mono hrelated.keeps,
      (hview.mono (hadded.trans hrelated).keeps).ambiguousWith⟩

theorem adoptViews (h : a.IsSound) (hid : a.HoldsClass id) (hcategory : a.HoldsClass category)
    (isDetail : Bool) {views : List View} (hviews : ∀ v ∈ views, v.IsSound a) :
    a.GrowsSoundly (a.adoptViews id category isDetail views).1 ∧
      ∀ v ∈ (a.adoptViews id category isDetail views).2,
        v.IsSound (a.adoptViews id category isDetail views).1 := by
  refine List.foldlRecOn (motive := fun state : Atlas × List View =>
    a.GrowsSoundly state.1 ∧ ∀ v ∈ state.2, v.IsSound state.1) views _ ⟨h.refl, by simp⟩ ?_
  rintro ⟨b, adopted⟩ ⟨hb, hadopted⟩ view hview
  obtain ⟨hgrows, hnew⟩ := hb.isSound.adoptView (hid.mono hb.keeps) (hcategory.mono hb.keeps)
    isDetail ((hviews view hview).mono hb.keeps)
  refine ⟨hb.trans hgrows, fun v hv => ?_⟩
  rcases List.mem_append.mp hv with hv | hv
  · exact (hadopted v hv).mono hgrows.keeps
  · exact hnew v (Option.mem_toList.mp hv)

/-- The state while a category is taken into a class. -/
structure Adopts (a : Atlas) (state : Atlas × Roster × List View) : Prop where
  grows : a.GrowsSoundly state.1
  roster : state.2.1.IsSound state.1
  adopted : ∀ v ∈ state.2.2, v.IsSound state.1

theorem Adopts.adoptName {state : Atlas × Roster × List View} (h : Adopts a state)
    (hid : a.HoldsClass id) (hcategory : a.HoldsClass category) (isDetail : Bool)
    {entry : String × List View} (hentry : ∀ v ∈ entry.2, v.IsSound a) :
    Adopts a (Atlas.adoptName id category isDetail state entry) := by
  obtain ⟨b, roster, adopted⟩ := state
  obtain ⟨name, views⟩ := entry
  obtain ⟨hb, hroster, hadopted⟩ := h
  have hviews : ∀ v ∈ views, v.IsSound b := fun v hv => (hentry v hv).mono hb.keeps
  have hcategory' := hcategory.mono hb.keeps
  unfold Atlas.adoptName
  dsimp only
  split
  · next own hown =>
    have hrelated := hb.isSound.relate hcategory' (hroster name own hown) hviews
    exact ⟨hb.trans hrelated, hroster.mono hrelated.keeps,
      fun v hv => (hadopted v hv).mono hrelated.keeps⟩
  · obtain ⟨hgrows, hnew⟩ := hb.isSound.adoptViews (hid.mono hb.keeps) hcategory' isDetail hviews
    refine ⟨hb.trans hgrows, (hroster.mono hgrows.keeps).insert name hnew, fun v hv => ?_⟩
    rcases List.mem_append.mp hv with hv | hv
    · exact (hadopted v hv).mono hgrows.keeps
    · exact hnew v hv

theorem withCategory (h : a.IsSound) (hid : a.HoldsClass id) (category : EntityId)
    {c : ClassBody} (hc : c.IsSound a) : a.GrowsSoundly (a.withCategory id category c) := by
  have hmarked : a.GrowsSoundly (a.modifyClass category fun c => { c with categoryOf := some id }) := by
    refine h.modifyClass category fun c hc => { hc with categoryOf := ?_ }
    simpa using hid
  unfold Atlas.withCategory
  dsimp only
  split
  · have hartificial := hmarked.isSound.modifyEntity category
      (f := fun e => { e with flags.isArtificial := true }) (fun e => rfl) fun e he => { he with }
    have hboth := hmarked.trans hartificial
    exact hboth.trans (hboth.isSound.donateBases (hid.mono hboth.keeps) category
      fun edge hedge => (hc.bases edge hedge).mono hboth.keeps)
  · exact hmarked

/-- Taking over a category leaves no reference to what is not there. -/
theorem adopt (h : a.IsSound) (hid : a.HoldsClass id) (hcategory : a.HoldsClass category)
    {c : ClassBody} (hc : c.IsSound a) (isLocal : Bool) :
    a.GrowsSoundly (a.adopt id category c isLocal).value := by
  have hb := h.withCategory hid category hc
  unfold Atlas.adopt
  generalize a.withCategory id category c = b at hb ⊢
  dsimp only
  split
  · exact hb
  · next target htarget =>
    -- The table of the class is taken out while that of the category is gone through.
    have hbare : b.GrowsSoundly (b.modifyClass id fun c => { c with roster := .empty }) :=
      hb.isSound.modifyClass id fun c hc => { hc with roster := .empty _ }
    have htarget' := (hb.isSound.ofClass htarget).roster.mono hbare.keeps
    have hboth := hb.trans hbare
    generalize b.modifyClass id _ = b₁ at hbare htarget' hboth ⊢
    have hadopts := List.foldlRecOn (motive := Adopts b₁) c.roster.toList
      (Atlas.adoptName id category (isLocal || c.traits.isExtension))
      (b := (b₁, target.roster, [])) ⟨hbare.isSound.refl, htarget', by simp⟩
      fun state hstate entry hentry => hstate.adoptName (hid.mono hboth.keeps)
        (hcategory.mono hboth.keeps) _
        (Dict.All.of_mem_toList (hc.roster.mono hboth.keeps) hentry)
    generalize c.roster.toList.foldl _ _ = state at hadopts ⊢
    obtain ⟨b₂, roster, adopted⟩ := state
    obtain ⟨hgrows, hroster, hadopted⟩ := hadopts
    have hlisted : b₂.GrowsSoundly (b₂.modifyClass id fun c => { c with roster }) :=
      hgrows.isSound.modifyClass id fun c hc => { hc with roster := hroster }
    refine (hboth.trans hgrows).trans (hlisted.trans ?_)
    refine GrowsSoundly.foldlM (fun b => b) (fun b₃ hb₃ view hview => ?_) hlisted.isSound.refl
    exact hb₃.isSound.fileInClass id
      (((hadopted view hview).member.mono hlisted.keeps).mono hb₃.keeps) _ false

theorem mergeCategory (h : a.IsSound) (hid : a.Holds id) (hcategory : a.Holds category)
    {merged : Noted Atlas} (hmerged : a.mergeCategory id category = .ok merged) :
    a.GrowsSoundly merged.value := by
  rcases mergeCategory_eq_or hmerged with heq | ⟨_, c, isLocal, htarget, hc, heq⟩ <;> rw [heq]
  · exact h.refl
  · exact h.adopt (hid.holdsClass (class?_of_requireClass htarget))
      (hcategory.holdsClass (class?_of_requireClass hc)) (h.ofClass (class?_of_requireClass hc))
      isLocal

end IsSound

end SymbolAtlas.Atlas
