import SymbolAtlas.Proofs.Atlas.Upkeep
import SymbolAtlas.Proofs.Build.Linking
import SymbolAtlas.Proofs.Inheritance.Once

/-!
# Integrity of a built atlas

Every phase of a build hands the operations numbers that are those of records: of the entities it has
registered, of what names are resolved to, and of what sound records refer to. So the atlas that a
build ends with is sound.
-/

set_option autoImplicit false

namespace SymbolAtlas

variable {id : EntityId} {name : String}

/-! ## Inheriting members -/

theorem View.IsSound.marked {a : Atlas} {v w : View} (h : v.IsSound a) {separator : String}
    (hmarked : v.Marked separator w) : w.IsSound a := by
  rw [hmarked.eq]
  exact ⟨h.member, h.ambiguousWith⟩

namespace Atlas

variable {a b : Atlas}

theorem Arrival.isSound {passage : Passage} {isPresent : Bool} {s t : View}
    (h : a.Arrival passage isPresent s t) (hs : s.IsSound b)
    (htarget : b.HoldsClass passage.edge.target) : t.IsSound b := by
  refine ⟨h.member ▸ hs.member, fun id hid => ?_⟩
  rcases h.ambiguousWith id hid with hid | rfl
  · exact hs.ambiguousWith id hid
  · exact htarget

theorem isSound_of_under {roster : Roster}
    (h : ∀ name, ∀ v ∈ roster.under name, v.IsSound a) : roster.IsSound a := by
  intro name views hviews v hv
  refine h name v ?_
  rw [Roster.under, hviews]
  exact hv

theorem isSound_under {roster : Roster} (h : roster.IsSound a) {v : View}
    (hv : v ∈ roster.under name) : v.IsSound a := by
  unfold Roster.under at hv
  cases hget : roster.get? name with
  | none => simp [hget] at hv
  | some views =>
    rw [hget] at hv
    exact h name views hget v hv

namespace IsSound

section

variable (h : a.IsSound) (id : EntityId)

include h

theorem rosterOf : (a.rosterOf id).IsSound a := by
  unfold Atlas.rosterOf roster?
  cases hc : a.class? id with
  | none => exact .empty _
  | some c => exact (h.ofClass hc).roster

theorem takenOver (separator : String) {own : Roster} (hown : own.IsSound a) {edges : List BaseEdge}
    (hedges : ∀ edge ∈ edges, a.HoldsClass edge.target) :
    (a.takenOver separator own edges).1.IsSound a ∧
      ∀ entry ∈ (a.takenOver separator own edges).2, a.HoldsMember entry.1 := by
  have hroster : (a.takenOver separator own edges).1.IsSound a := by
    refine isSound_of_under fun name t ht => ?_
    rcases (a.takenOver_grown separator own edges name).mem ht with
      ⟨v, hv, hmarked⟩ | ⟨before, edge, after, rfl, s, hs, harrival⟩
    · exact (isSound_under hown hv).marked hmarked
    · exact harrival.isSound (isSound_under (h.rosterOf edge.target) hs) (hedges edge (by simp))
  refine ⟨hroster, fun entry hentry => ?_⟩
  -- What is noted is shown by the roster.
  obtain ⟨-, name, hshown⟩ := (a.reflects_takenOver separator own edges entry).mp (.inl hentry)
  obtain ⟨v, hv, -, hmember, -⟩ := View.mem_inheritedOf.mp hshown
  exact hmember ▸ (isSound_under hroster hv).member

theorem mergeOne : a.GrowsSoundly (a.mergeOne id).value := by
  cases hunmerged : a.isUnmerged id with
  | false =>
    rw [value_mergeOne, hunmerged]
    exact h.refl
  | true =>
    obtain ⟨e, c, he, hbody, hmerged⟩ := class?_of_isUnmerged hunmerged
    rw [a.value_mergeOne_of_unmerged he hbody hmerged]
    -- Bases are read while the class's own table is set aside.
    have haside : a.GrowsSoundly (a.setAside id) :=
      h.modifyClass id fun c hc => { hc with roster := .empty _ }
    have hc := ((h.entities id e he).ofClass c hbody).mono haside.keeps
    obtain ⟨hroster, hinlined⟩ := haside.isSound.takenOver e.separator hc.roster hc.bases
    generalize (a.setAside id).takenOver e.separator c.roster c.bases = taken at hroster hinlined ⊢
    generalize a.setAside id = b at haside hroster hinlined ⊢
    have hlisted : b.GrowsSoundly (b.modifyClass id fun c => { c with roster := taken.1 }) :=
      haside.isSound.modifyClass id fun c hc => { hc with roster := hroster }
    refine haside.trans (hlisted.trans ?_)
    refine GrowsSoundly.foldl (fun b => b) (fun b' hb' entry hentry => ?_) hlisted.isSound.refl
    exact hb'.isSound.fileInClass id
      (((hinlined entry hentry).mono hlisted.keeps).mono hb'.keeps) entry.2 false

theorem mergeAll : a.GrowsSoundly a.mergeAll.value.1 := by
  rw [value_mergeAll]
  refine GrowsSoundly.foldl (fun b => b) (fun b hb id _ => ?_) h.refl
  rw [value_mergeFrom]
  exact GrowsSoundly.foldl (fun c => c) (fun c hc id _ => hc.isSound.mergeOne id) hb.isSound.refl

theorem avoidsZero : a.AvoidsZero := by
  intro e he
  cases hclass : e.class? with
  | none => rfl
  | some c =>
    rw [Option.all_some, List.all_eq_true]
    intro edge hedge
    have hpos := (((h.entity_of_mem he).ofClass c hclass).bases edge hedge).1
    simpa using Nat.ne_of_gt hpos

end

/-! ## Closing using relations -/

theorem ofNamespace (h : a.IsSound) {n : NamespaceBody} (hn : a.namespace? id = some n) :
    n.IsSound a := by
  obtain ⟨e, he, hbody⟩ := Option.bind_eq_some_iff.mp hn
  exact (h.entities id e he).ofNamespace n hbody

theorem usings (h : a.IsSound) (id : EntityId) :
    (a.directives id).All a.HoldsNamespace ∧ (a.declarations id).All a.HoldsTarget := by
  unfold directives declarations
  cases hn : a.namespace? id with
  | none => exact ⟨.empty _, .empty _⟩
  | some n => exact ⟨(h.ofNamespace hn).usingDirectives, (h.ofNamespace hn).usingDeclarations⟩

theorem absorbUsed (h : a.IsSound) (id : EntityId) : a.GrowsSoundly (a.absorbUsed id) := by
  have hdirectives : ∀ entry ∈ a.broughtDirectives id, a.HoldsNamespace entry.2 := by
    intro entry hentry
    obtain ⟨v, -, hmem⟩ := List.mem_flatMap.mp (List.mem_of_mem_filter hentry)
    exact (h.usings v).1.of_mem_toList hmem
  have hdeclarations : ∀ entry ∈ a.broughtDeclarations id, a.HoldsTarget entry.2 := by
    intro entry hentry
    obtain ⟨v, -, hmem⟩ := List.mem_flatMap.mp hentry
    exact (h.usings v).2.of_mem_toList hmem
  exact h.modifyNamespace id fun n hn => { hn with
    usingDirectives := hn.usingDirectives.foldl_insertNew hdirectives
    usingDeclarations := hn.usingDeclarations.foldl_insertNew hdeclarations }

theorem closeAllUsing (h : a.IsSound) : a.GrowsSoundly a.closeAllUsing := by
  refine GrowsSoundly.foldl (fun b => b) (fun b hb id _ => ?_) h.refl
  unfold closeFrom
  split
  · refine GrowsSoundly.foldl (fun c => c) (fun c hc id _ => hc.isSound.absorbUsed id) ?_
    refine GrowsSoundly.foldl (fun c => c) (fun c hc id _ => ?_) hb.isSound.refl
    exact hc.isSound.modifyNamespace id fun n hn => { hn with }
  · exact hb.isSound.refl

/-! ## Names -/

theorem of_resolve? (h : a.IsSound) {scope : Option EntityId} {accept : Entity → Bool}
    (hid : a.resolve? scope name accept = some id) :
    a.Holds id ∧ (a.entity? id).any accept = true := by
  obtain ⟨name', hfind, haccept⟩ := find?_of_resolve? hid
  exact ⟨h.holds_of_find? hfind, haccept⟩

theorem holdsMember_of_mem_membersNamed (h : a.IsSound) {id : MemberId}
    (hid : id ∈ a.membersNamed name) : a.HoldsMember id := by
  rw [h.memberNames] at hid
  obtain ⟨slot, hslot, rfl⟩ := List.mem_map.mp (List.mem_of_mem_filter hid)
  exact ⟨Nat.succ_pos slot, List.mem_range.mp hslot⟩

end IsSound

end Atlas

namespace Build

open Atlas

variable {progress : Progress}
variable {a : Atlas} {declared : List Declared}

/-- The entities of declarations are there. -/
def AreDeclared (a : Atlas) (declared : List Declared) : Prop :=
  ∀ owner ∈ declared, a.Holds owner.1

theorem AreDeclared.mono {b : Atlas} (h : AreDeclared a declared) (hkeeps : a.Keeps b) :
    AreDeclared b declared :=
  fun owner howner => (h owner howner).keeps hkeeps

/-! ## Registering -/

theorem growsSoundly_declareFormals (h : a.IsSound) (id : EntityId) (decl : EntityDecl) :
    a.GrowsSoundly (declareFormals a id decl).value :=
  declareFormals_kept h.setFormals h.refl

theorem growsSoundly_registerAs (h : a.IsSound) (decl : EntityDecl) (kind : EntityKind)
    (p : Protection) :
    a.GrowsSoundly (registerAs a decl kind p).value.1 ∧
      (registerAs a decl kind p).value.1.Holds (registerAs a decl kind p).value.2 := by
  unfold registerAs
  dsimp only
  obtain ⟨hregistered, hid⟩ := h.register decl.name kind decl.location
  generalize a.register decl.name kind _ = registered at hregistered hid ⊢
  obtain ⟨b, id⟩ := registered
  have hdescribed : b.GrowsSoundly (b.modifyEntity id (describe decl p)) := by
    refine hregistered.isSound.modifyEntity id (fun e => ?_) fun e he => ?_
    · unfold describe
      rw [Entity.badge_modifyNamespace]
      rfl
    · apply Entity.IsSound.modifyNamespace
      · exact { he with }
      · exact fun n hn => { hn with }
  have htraits := hdescribed.isSound.modifyClass id
    (f := fun c => { c with traits := c.traits.addAll (traitsOf decl kind).value })
    fun c hc => { hc with }
  have hformals := growsSoundly_declareFormals htraits.isSound id decl
  have hall := hdescribed.trans (htraits.trans hformals)
  exact ⟨hregistered.trans hall, hid.keeps hall.keeps⟩

theorem areDeclared_registerOne {state : Progress × List Declared}
    (h : state.1.atlas.IsSound ∧ AreDeclared state.1.atlas state.2) (decl : EntityDecl) :
    (registerOne state decl).value.1.atlas.IsSound ∧
      AreDeclared (registerOne state decl).value.1.atlas (registerOne state decl).value.2 := by
  refine registerOne_kept (P := fun s => s.1.atlas.IsSound ∧ AreDeclared s.1.atlas s.2)
    (fun kind p _ _ => ?_) h
  obtain ⟨hgrows, hid⟩ := growsSoundly_registerAs h.1 decl kind p
  refine ⟨hgrows.isSound, fun owner howner => ?_⟩
  rcases List.mem_append.mp howner with howner | howner
  · exact h.2.mono hgrows.keeps owner howner
  · rw [List.mem_singleton.mp howner]
    exact hid

theorem growsSoundly_addScopes (h : progress.atlas.IsSound) :
    progress.atlas.GrowsSoundly (addScopes progress).atlas := by
  refine addScopes_kept (P := fun p => progress.atlas.GrowsSoundly p.atlas)
    (fun p scope hp => ?_) h.refl
  obtain ⟨hregistered, -⟩ := hp.isSound.register scope .namespaceKind {}
  exact (hp.trans hregistered).trans
    (hregistered.isSound.modifyEntity _ (fun e => rfl) fun e he => { he with })

theorem growsSoundly_linkScopes (h : progress.atlas.IsSound) :
    progress.atlas.GrowsSoundly (linkScopes progress).atlas := by
  -- The pairs are all found before the first one is linked.
  refine GrowsSoundly.foldl (fun b => b) (fun b hb pair hpair => ?_) h.refl
  obtain ⟨e, he, hpair⟩ := List.mem_filterMap.mp hpair
  obtain ⟨outer, houter, rfl⟩ := Option.map_eq_some_iff.mp hpair
  obtain ⟨scope, -, hfind⟩ := Option.bind_eq_some_iff.mp houter
  have hinner := h.holds_id (Array.mem_toList_iff.mp (List.mem_of_mem_filter he))
  exact hb.isSound.setOuter (hinner.keeps hb.keeps) ((h.holds_of_find? hfind).keeps hb.keeps)

/-! ## Members -/

theorem refersToNone_memberOf {owner : EntityDecl} {decl : MemberDecl} {m : Member}
    (hm : (memberOf owner decl).value = some m) :
    m.templateMaster = none ∧ m.category = none ∧ m.categoryRelation = none := by
  unfold memberOf at hm
  split at hm
  · cases hm
  · rw [Noted.value_bind] at hm
    split at hm
    · cases hm
    · obtain ⟨v, -, rfl⟩ := Option.map_eq_some_iff.mp hm
      exact ⟨rfl, rfl, rfl⟩

theorem isSound_memberOf {owner : EntityDecl} {decl : MemberDecl} {m : Member}
    (hm : (memberOf owner decl).value = some m) (hid : a.Holds id) :
    { m with owner := some id }.IsSound a := by
  obtain ⟨hmaster, hcategory, hrelation⟩ := refersToNone_memberOf hm
  refine ⟨fun id' hid' => ?_, by simp [hmaster], by simp [hcategory], by simp [hrelation]⟩
  cases hid'
  exact hid

theorem growsSoundly_addMember (h : progress.atlas.IsSound) {owner : Declared}
    (howner : progress.atlas.Holds owner.1) (decl : MemberDecl) :
    progress.atlas.GrowsSoundly (addMember owner progress decl).value.atlas := by
  refine addMember_kept (P := fun p => progress.atlas.GrowsSoundly p.atlas) (fun m hm => ?_) h.refl
  obtain ⟨hadded, hid⟩ := h.addMember (some owner.1) m (isSound_memberOf hm howner)
  exact ⟨hadded, fun _ hfiled => hadded.trans (hadded.isSound.insertMember hid hfiled)⟩

theorem growsSoundly_addMembers (h : progress.atlas.IsSound)
    (hdeclared : AreDeclared progress.atlas declared) :
    progress.atlas.GrowsSoundly (addMembers progress declared).value.atlas := by
  refine GrowsSoundly.foldlM Progress.atlas (fun p hp owner howner => ?_) h.refl
  refine GrowsSoundly.foldlM Progress.atlas (fun p' hp' decl _ => ?_) hp.isSound.refl
  exact growsSoundly_addMember hp'.isSound
    ((hdeclared owner howner).keeps (hp.trans hp').keeps) decl

/-! ## Bases -/

theorem growsSoundly_addPlaceholder (h : a.IsSound) (name : String) :
    a.GrowsSoundly (addPlaceholder a name).1 ∧
      (addPlaceholder a name).1.HoldsClass (addPlaceholder a name).2 := by
  obtain ⟨name', names', hnames, heq⟩ := addPlaceholder_eq a name
  rw [heq]
  have hallocated := h.allocate name' .classKind {}
  have hnew : (a.allocate name' .classKind {}).1.HoldsClass (.ofSlot a.entities.size) :=
    a.holdsClass_allocate name' rfl {}
  have hflagged := hallocated.isSound.modifyEntity (.ofSlot a.entities.size)
    (f := fun e => { e with flags.isArtificial := true, flags.isUsedOnly := true })
    (fun e => rfl) fun e he => { he with }
  have hboth := hallocated.trans hflagged
  rcases hnames with rfl | ⟨-, rfl⟩
  · exact ⟨hboth, hnew.mono hflagged.keeps⟩
  · have hentity := a.entity?_allocate name' .classKind {} (.ofSlot a.entities.size)
    rw [if_pos (EntityId.slot_ofSlot _)] at hentity
    have hentity' := entity?_modifyEntity (a.allocate name' .classKind {}).1
      (.ofSlot a.entities.size) (.ofSlot a.entities.size)
      fun e => { e with flags.isArtificial := true, flags.isUsedOnly := true }
    rw [if_pos rfl, hentity] at hentity'
    have hnamed := hboth.isSound.withName (Nat.succ_pos _) hentity' rfl
    exact ⟨hboth.trans hnamed, (hnew.mono hflagged.keeps).mono hnamed.keeps⟩

theorem holdsClass_of_any (hid : a.Holds id) (hany : (a.entity? id).any (·.isClass) = true) :
    a.HoldsClass id := by
  obtain ⟨e, he⟩ := hid.exists_entity
  exact ⟨hid.1, e, he, by simpa [he] using hany⟩

theorem linksKeep_growsSoundly (a : Atlas) :
    LinksKeep (fun q => a.GrowsSoundly q.atlas) fun q id => q.atlas.HoldsClass id where
  find := by
    intro q scope name decl hq
    unfold findBase
    split
    · next id hid =>
      obtain ⟨hholds, hclass⟩ := hq.isSound.of_resolve? hid
      exact ⟨.refl hq, holdsClass_of_any hholds hclass⟩
    · obtain ⟨hadded, hnew⟩ := growsSoundly_addPlaceholder hq.isSound name
      exact ⟨⟨hq.trans hadded, fun hid => hid.mono hadded.keeps⟩, hnew⟩
  link hq hchild htarget := by
    have hlinked := hq.isSound.linkBase hchild htarget
    exact ⟨hq.trans hlinked, fun hid => hid.mono hlinked.keeps⟩

theorem growsSoundly_addBases (h : progress.atlas.IsSound)
    (hdeclared : AreDeclared progress.atlas declared) :
    progress.atlas.GrowsSoundly (addBases progress declared).value.atlas :=
  ((linksKeep_growsSoundly progress.atlas).addBases (R := fun _ => True)
    (fun hq htarget hmade => by
      obtain ⟨hmade, hinstance⟩ := (IsSound.instancesKeep progress.atlas).instantiate hq htarget hmade
      exact ⟨⟨hmade.holds, hmade.mono⟩, hinstance⟩)
    h.refl (fun owner howner _ _ hq hc => ((hdeclared owner howner).keeps hq.keeps).holdsClass hc)
    trivial fun _ _ _ _ => trivial).1

/-! ## Categories and using relations -/

theorem growsSoundly_mergeCategoryOf (h : progress.atlas.IsSound) {owner : Declared}
    (howner : progress.atlas.Holds owner.1) :
    progress.atlas.GrowsSoundly (mergeCategoryOf progress owner).value.atlas := by
  unfold mergeCategoryOf
  dsimp only
  split
  · exact h.refl
  · split
    · exact h.refl
    · split
      · exact h.refl
      · split
        · exact h.refl
        · next id hid =>
          split
          · exact h.refl
          · next merged hmerged => exact h.mergeCategory (h.of_resolve? hid).1 howner hmerged

theorem growsSoundly_addUsedNamespace (h : progress.atlas.IsSound) (owner : Declared)
    (outer : Option EntityId) (target : String) :
    progress.atlas.GrowsSoundly (addUsedNamespace owner outer progress target).value.atlas := by
  unfold addUsedNamespace
  dsimp only
  split
  · next used hused =>
    have hholds : progress.atlas.Holds used := by
      rcases Option.or_eq_some_iff.mp hused with hused | ⟨-, hused⟩
      all_goals exact (h.of_resolve? hused).1
    split
    · next hb => exact h.useNamespace hholds hb
    · exact h.refl
  · exact h.refl

theorem holdsTarget_of_usingTarget? (h : a.IsSound) {found : String × UsingTarget}
    (hfound : usingTarget? a id name = some found) : a.HoldsTarget found.2 := by
  unfold usingTarget? at hfound
  dsimp only at hfound
  split at hfound
  · next target htarget =>
    cases hfound
    exact (h.of_resolve? htarget).1
  · obtain ⟨scope, -, hfound⟩ := Option.bind_eq_some_iff.mp hfound
    obtain ⟨owner, -, hfound⟩ := Option.bind_eq_some_iff.mp hfound
    obtain ⟨m, hm, hfound⟩ := Option.bind_eq_some_iff.mp hfound
    cases hfound
    exact h.holdsMember_of_mem_membersNamed (List.mem_of_find?_eq_some hm)

theorem growsSoundly_addUsedDeclaration (h : progress.atlas.IsSound) (owner : Declared)
    (name : String) :
    progress.atlas.GrowsSoundly (addUsedDeclaration owner progress name).value.atlas := by
  unfold addUsedDeclaration
  split
  · next htarget =>
    split
    · next hb => exact h.useDeclaration (holdsTarget_of_usingTarget? h htarget) hb
    · exact h.refl
  · exact h.refl

theorem growsSoundly_addUsings (h : progress.atlas.IsSound) (owner : Declared) :
    progress.atlas.GrowsSoundly (addUsings progress owner).value.atlas := by
  unfold addUsings
  split
  · exact h.refl
  · next e _ =>
    split
    · have hused : progress.atlas.GrowsSoundly
          (owner.2.usingNamespaces.foldlM (addUsedNamespace owner e.outer) progress).value.atlas :=
        GrowsSoundly.foldlM Progress.atlas
          (fun p hp target _ => growsSoundly_addUsedNamespace hp.isSound owner e.outer target) h.refl
      exact hused.trans (GrowsSoundly.foldlM Progress.atlas
        (fun p hp name _ => growsSoundly_addUsedDeclaration hp.isSound owner name)
        hused.isSound.refl)
    · exact h.refl

/-! ## The whole build -/

/-- No phase of a build leads to what is not there. -/
theorem isSound_assemble (h : a.IsSound) (d : Document) : (assemble a d).value.atlas.IsSound := by
  have hregistered : (registerAll { atlas := a } d).value.1.atlas.IsSound ∧
      AreDeclared (registerAll { atlas := a } d).value.1.atlas
        (registerAll { atlas := a } d).value.2 :=
    Noted.foldlM_kept (P := fun s : Progress × List Declared =>
        s.1.atlas.IsSound ∧ AreDeclared s.1.atlas s.2)
      (fun s decl hs => areDeclared_registerOne hs decl) _ ⟨h, fun owner howner => nomatch howner⟩
  obtain ⟨hsound, hdeclared⟩ := hregistered
  have hscoped := growsSoundly_addScopes hsound
  have hlinked := hscoped.trans (growsSoundly_linkScopes hscoped.isSound)
  have hfilled := hlinked.trans
    (growsSoundly_addMembers hlinked.isSound (hdeclared.mono hlinked.keeps))
  have hbased := hfilled.trans
    (growsSoundly_addBases hfilled.isSound (hdeclared.mono hfilled.keeps))
  have hmerged := hbased.trans (GrowsSoundly.foldlM Progress.atlas
    (fun p hp owner howner => growsSoundly_mergeCategoryOf hp.isSound
      ((hdeclared owner howner).keeps (hbased.trans hp).keeps)) hbased.isSound.refl)
  exact (GrowsSoundly.foldlM Progress.atlas
    (fun p hp owner _ => growsSoundly_addUsings hp.isSound owner) hmerged.isSound.refl).isSound

theorem run_atlas_eq (options : Options) (d : Document) :
    (run options d).value.1 =
      (assemble (.empty options) d).value.atlas.mergeAll.value.1.closeAllUsing := by
  rfl

theorem isSound_run (options : Options) (d : Document) : (run options d).value.1.IsSound := by
  rw [run_atlas_eq]
  exact (isSound_assemble (.empty options) d).mergeAll.isSound.closeAllUsing.isSound

/-- In the atlas that a build ends with, the numbers of the entities count them from one, and so do
those of the members. A registered name leads to an entity of that name, and no two registered
entities share one. The members that are listed under a name are those of that name, in the order of
their numbers. All numbers that entities and members refer to are those of records of the right
sort. -/
theorem integrity_run (options : Options) (d : Document) :
    let a := (run options d).value.1
    a.entities.toList.map (·.id.number) = List.range' 1 a.entities.size ∧
    a.members.toList.map (·.id.number) = List.range' 1 a.members.size ∧
    (∀ name id, a.find? name = some id →
      ∃ e, a.entity? id = some e ∧ e.id = id ∧ e.name = name) ∧
    (∀ name name' id id', a.find? name = some id → a.find? name' = some id' →
      a.name id = a.name id' → id = id') ∧
    (∀ name, (a.membersNamed name).Pairwise fun id id' => id.number < id'.number) ∧
    (∀ name id, id ∈ a.membersNamed name ↔ ∃ m ∈ a.members, m.id = id ∧ m.name = name) ∧
    (∀ e ∈ a.entities, e.IsSound a) ∧
    ∀ m ∈ a.members, m.IsSound a := by
  intro a
  have h : a.IsSound := isSound_run options d
  refine ⟨h.map_entity_number, h.map_member_number, fun name id => h.exists_of_find?, ?_,
    h.pairwise_membersNamed, fun name id => h.mem_membersNamed_iff, fun e => h.entity_of_mem,
    fun m => h.member_of_mem⟩
  intro name name' id id' hid hid' hname
  rw [h.name_of_find? hid, h.name_of_find? hid'] at hname
  subst hname
  exact Option.some.inj (hid.symm.trans hid')

/-- A template and a class derived from an instance of it. -/
def crates : Document where
  entities :=
    [{ name := "Box", kind := "class", formals := ["T"],
       members := [{ name := "open", kind := "function", args := "(T item)" }] },
     { name := "Crate", kind := "class", bases := [.plain "Box<int>"] }]

/-- The instance is a third entity, its function a second member. Both refer to what they are made
from. -/
theorem integrity_run_crates :
    let a := (run {} crates).value.1
    a.entities.size = 3 ∧ a.membersNamed "open" = [⟨1⟩, ⟨2⟩] ∧
      (∃ e, a.entity? ⟨1⟩ = some e ∧ e.id = ⟨1⟩ ∧ e.name = "Box") ∧
      (∃ e ∈ a.entities, e.id = ⟨3⟩ ∧ e.templateMaster = some ⟨1⟩ ∧ a.HoldsClass ⟨1⟩) ∧
      ∃ m ∈ a.members, m.id = ⟨2⟩ ∧ m.templateMaster = some ⟨1⟩ ∧ a.HoldsMember ⟨1⟩ := by
  intro a
  obtain ⟨-, -, hnames, -, -, -, hentities, hmembers⟩ := integrity_run {} crates
  have hbox : a.find? "Box" = some ⟨1⟩ := by decide +kernel
  have hentity : ∃ e ∈ a.entities, e.id = ⟨3⟩ ∧ e.templateMaster = some ⟨1⟩ := by decide +kernel
  have hmember : ∃ m ∈ a.members, m.id = ⟨2⟩ ∧ m.templateMaster = some ⟨1⟩ := by decide +kernel
  obtain ⟨e, he, hid, hmaster⟩ := hentity
  obtain ⟨m, hm, hid', hmaster'⟩ := hmember
  obtain ⟨c, hc, hclassMaster⟩ := Option.bind_eq_some_iff.mp hmaster
  refine ⟨by decide +kernel, by decide +kernel, hnames "Box" ⟨1⟩ hbox, ?_, ?_⟩
  · exact ⟨e, he, hid, hmaster, ((hentities e he).ofClass c hc).templateMaster ⟨1⟩ hclassMaster⟩
  · exact ⟨m, hm, hid', hmaster', (hmembers m hm).templateMaster ⟨1⟩ hmaster'⟩

end Build

end SymbolAtlas
