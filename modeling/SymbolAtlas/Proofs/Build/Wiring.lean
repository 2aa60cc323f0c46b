import SymbolAtlas.Proofs.Build.Integrity
import SymbolAtlas.Proofs.Inheritance.Duality

/-!
# Building by elementary changes

Until all bases are linked, a build makes strict changes and no others: entities get their protections
while no class has bases, and categories come later. So the lists of bases and of derived classes say
the same by then, and derived classes are in order.
-/

set_option autoImplicit false

namespace SymbolAtlas

variable {a : Atlas}

theorem Atlas.IsUnlinked.bases_eq_nil {admits : EntityKind → Prop} (h : a.IsUnlinked admits)
    (id : EntityId) : a.bases id = [] := by
  rw [bases_eq_lineage?, lineage?]
  cases he : a.entity? id with
  | none => rfl
  | some e =>
    rw [Option.bind_some]
    cases hl : e.lineage? with
    | none => rfl
    | some l =>
      rw [(h.entities id e he).lineage l hl]
      rfl

theorem Atlas.Changes.name_eq {isStrict : Bool} {a b : Atlas} (h : Changes isStrict a b)
    {id : EntityId} (hid : a.Holds id) : b.name id = a.name id := by
  induction h with
  | refl => rfl
  | tail hbefore hstep ih =>
    exact (hstep.name_eq (Nat.lt_of_lt_of_le hid.slot_lt (Changes.size_le hbefore))).trans ih

namespace Build

open Atlas

variable {progress : Progress}

/-! ## Registering -/

theorem changes_declareFormals (a : Atlas) (id : EntityId) (decl : EntityDecl) :
    Changes true a (declareFormals a id decl).value :=
  declareFormals_kept changes_setFormals .refl

theorem name_register (h : a.IsSound) (name : String) (kind : EntityKind) (location : Location) :
    (a.register name kind location).1.name (a.register name kind location).2 = name := by
  unfold Atlas.register
  split
  · next id hfind =>
    obtain ⟨-, e, he, rfl⟩ := h.names name id hfind
    simp [Atlas.name, he]
  · have hentity := a.entity?_allocate name kind location (.ofSlot a.entities.size)
    rw [if_pos (EntityId.slot_ofSlot _)] at hentity
    show (((a.allocate name kind location).1.entity? (.ofSlot a.entities.size)).map (·.name)).getD "" =
      name
    rw [hentity]
    rfl

/-- What a declaration says about an entity, with its protection. -/
def description (decl : EntityDecl) (p : Protection) : Amendment where
  apply := describe decl p
  keeps e := by
    unfold describe
    dsimp only
    rw [Entity.profile_modifyNamespace]
    rfl

theorem changes_registerAs {admits : EntityKind → Prop} (h : a.IsUnlinked admits)
    (decl : EntityDecl) (kind : EntityKind) (hkind : admits kind) (p : Protection) :
    let registered := a.register decl.name kind decl.location
    registered.1.Holds registered.2 ∧
      Changes true registered.1 (registerAs a decl kind p).value.1 := by
  intro registered
  obtain ⟨hunlinked, hid⟩ := h.register decl.name hkind decl.location
  refine ⟨hid, ?_⟩
  have hdescribed : Changes true registered.1
      (registered.1.modifyEntity registered.2 (describe decl p)) :=
    Operation.changes_amend registered.1 registered.2 (description decl p)
      fun _ => .inl (hunlinked.bases_eq_nil _)
  have htraits : Changes true registered.1 _ := hdescribed.trans
    (changes_modifyClass _ registered.2 (f := fun c =>
      { c with traits := c.traits.addAll (traitsOf decl kind).value }) fun c => rfl)
  exact htraits.trans (changes_declareFormals _ registered.2 decl)

/-- What is known while entities are registered, by the changes that have been made. -/
structure IsRegistering (options : Options) (state : Progress × List Declared) : Prop where
  isRegistered : IsRegistered (fun _ => True) state.1 state.2
  isSound : state.1.atlas.IsSound
  changes : Changes true (.empty options) state.1.atlas
  names : ∀ owner ∈ state.2, state.1.atlas.name owner.1 = owner.2.name

theorem IsRegistering.registerOne {options : Options} {state : Progress × List Declared}
    (h : IsRegistering options state) (decl : EntityDecl) :
    IsRegistering options (Build.registerOne state decl).value := by
  have hkinds : ∀ kind, EntityKind.decode decl.kind = .ok kind → True := fun _ _ => trivial
  have hregistered := isRegistered_registerOne h.isRegistered hkinds
  have hsound := (areDeclared_registerOne ⟨h.isSound, h.isRegistered.declared⟩ decl).1
  refine and_imp.mpr (.mk hregistered hsound) (registerOne_kept (P := fun s =>
    Changes true (.empty options) s.1.atlas ∧ ∀ owner ∈ s.2, s.1.atlas.name owner.1 = owner.2.name)
    (fun kind p _ _ => ?_) ⟨h.changes, h.names⟩)
  obtain ⟨hid, hnew⟩ := changes_registerAs h.isRegistered.isUnlinked decl kind trivial p
  have hall : Changes true state.1.atlas _ := (changes_register _ _ _ _).trans hnew
  refine ⟨h.changes.trans hall, fun owner howner => ?_⟩
  rcases List.mem_append.mp howner with howner | howner
  · exact (hall.name_eq (h.isRegistered.declared owner howner)).trans (h.names owner howner)
  · rw [List.mem_singleton.mp howner]
    exact (hnew.name_eq hid).trans (name_register h.isSound decl.name kind _)

theorem changes_addScopes (progress : Progress) :
    Changes true progress.atlas (addScopes progress).atlas := by
  refine addScopes_kept (P := fun p => Changes true progress.atlas p.atlas)
    (fun p scope hp => ?_) .refl
  exact (hp.trans (changes_register _ scope .namespaceKind {})).trans
    (changes_modifyEntity _ _ fun e => rfl)

theorem changes_linkScopes (progress : Progress) :
    Changes true progress.atlas (linkScopes progress).atlas :=
  Changes.foldl (fun b (pair : EntityId × EntityId) => b.changes_setOuter pair.1 pair.2) _ _

theorem isRegistering_registerAll (options : Options) (d : Document) :
    IsRegistering options (registerAll { atlas := .empty options } d).value :=
  Noted.foldlM_kept (P := IsRegistering options) (fun _ decl hs => hs.registerOne decl) _
    ⟨⟨.empty _ options, by simp, rfl⟩, .empty options, .refl, by simp⟩

/-- All that is prepared is a sequence of changes of an empty atlas. -/
theorem isRegistering_prepare (options : Options) (d : Document) :
    let prepared := (prepare (.empty options) d).value
    Changes true (.empty options) prepared.1.atlas ∧
      ∀ owner ∈ prepared.2, prepared.1.atlas.Holds owner.1 ∧
        prepared.1.atlas.name owner.1 = owner.2.name := by
  intro prepared
  have hregistered := isRegistering_registerAll options d
  have hrest : Changes true (registerAll { atlas := .empty options } d).value.1.atlas
      prepared.1.atlas :=
    ((changes_addScopes _).trans (changes_linkScopes _)).trans
      (sharesSkeleton_addMembers _ _).changes
  refine ⟨hregistered.changes.trans hrest, fun owner howner => ?_⟩
  have hholds := hregistered.isRegistered.declared owner howner
  exact ⟨hholds.mono hrest.size_le, (hrest.name_eq hholds).trans (hregistered.names owner howner)⟩

/-! ## Bases -/

theorem leadsTo_addPlaceholder (a : Atlas) (name : String) :
    a.LeadsTo true (addPlaceholder a name).1 (addPlaceholder a name).2 := by
  obtain ⟨name', names', hnames, heq⟩ := addPlaceholder_eq a name
  have hadds := a.adds_allocate name' .classKind {}
  have hflagged : Agrees Entity.profile (a.allocate name' .classKind {}).1 _ :=
    .modifyEntity _ (.ofSlot a.entities.size)
      (f := fun e => { e with flags.isArtificial := true, flags.isUsedOnly := true }) fun e => rfl
  have hadded : a.Adds (addPlaceholder a name).1
      { name := name', kind := .classKind, protection := .pub, relations? := some .empty }
      fun _ p => p := by
    rw [heq]
    exact ⟨hadds.options, hflagged.size.trans hadds.size, fun id =>
      (hflagged.profile?_eq id).trans (hadds.profile id)⟩
  refine ⟨.single (.declare name' .classKind ?_ hadded), ?_⟩
  · rw [heq]
    exact hnames
  · rw [addPlaceholder_id]
    exact hadded.holdsClass rfl

theorem linksKeep_changes (ha : a.IsWired) :
    LinksKeep (fun q => Changes true a q.atlas) fun q id => q.atlas.HoldsClass id where
  find := by
    intro q scope name decl hq
    unfold findBase
    split
    · next id hid =>
      obtain ⟨name', hfind, hclass⟩ := find?_of_resolve? hid
      exact ⟨.refl hq, holdsClass_of_any ((hq.isWired ha).names name' id hfind) hclass⟩
    · obtain ⟨hadded, hnew⟩ := leadsTo_addPlaceholder q.atlas name
      exact ⟨⟨hq.trans hadded, hadded.holdsClass⟩, hnew⟩
  link := by
    intro q child edge hq hchild htarget
    have hlinked : Changes true q.atlas _ := changes_linkBase hchild htarget
    exact ⟨hq.trans hlinked, hlinked.holdsClass⟩

/-- What holds when all bases are looked up, and is kept whenever an instance of a class is made a
base of another class. -/
theorem addBases_kept_of_isWired {P : Progress → Prop} (h : progress.atlas.IsWired)
    {declared : List Declared} (hdeclared : AreDeclared progress.atlas declared)
    (hstart : P (declared.foldlM addBasesOf (progress, [])).value.1)
    (hstep : ∀ (q : Progress) (p : PendingInstance), q.atlas.IsWired → q.atlas.HoldsClass p.child →
      q.atlas.HoldsClass p.edge.target → P q → P (addPending q p).value) :
    Changes true progress.atlas (addBases progress declared).value.atlas ∧
      P (addBases progress declared).value :=
  (linksKeep_changes h).addBases
    (fun hq htarget hmade => by
      obtain ⟨hmade, hinstance⟩ := (instancesKeep_changes true h).instantiate hq htarget hmade
      exact ⟨⟨hmade.holds, hmade.mono⟩, hinstance⟩)
    .refl (fun owner howner _ _ hq hc => ((hdeclared owner howner).mono hq.size_le).holdsClass hc)
    hstart fun hq => hstep _ _ (hq.isWired h)

end Build

end SymbolAtlas
