import SymbolAtlas.Proofs.Atlas.Growth

/-!
# Integrity

Entities and members refer to each other by numbers. An atlas is sound if every number that it
stores is that of a record of the right sort, if all records stand where their numbers say, and if
both indices of names say exactly what the records say. Changing a record and adding one keep an
atlas sound, and all records that it had.
-/

set_option autoImplicit false

namespace SymbolAtlas

variable {f : NamespaceBody → NamespaceBody}

/-! ## Numbers of records -/

namespace Atlas

/-- The number is that of a class. -/
def HoldsClass (a : Atlas) (id : EntityId) : Prop :=
  0 < id.number ∧ ∃ e, a.entity? id = some e ∧ e.isClass = true

/-- The number is that of a namespace. -/
def HoldsNamespace (a : Atlas) (id : EntityId) : Prop :=
  0 < id.number ∧ ∃ e, a.entity? id = some e ∧ e.isNamespace = true

/-- The number is that of a member. -/
def HoldsMember (a : Atlas) (id : MemberId) : Prop :=
  0 < id.number ∧ id.number ≤ a.members.size

/-- The number in a using-declaration is that of an entity or a member, as it says. -/
def HoldsTarget (a : Atlas) : UsingTarget → Prop
  | .entity id => a.Holds id
  | .member id => a.HoldsMember id

/-- The numbers of all members, in order. -/
def memberNumbers (a : Atlas) : List MemberId :=
  (List.range a.members.size).map .ofSlot

/-- The records of `a` are there in `b`, as what they are in `a`. -/
structure Keeps (a b : Atlas) : Prop where
  entities : ∀ id e, a.entity? id = some e → ∃ e', b.entity? id = some e' ∧ e'.isClass = e.isClass
  members : a.members.size ≤ b.members.size

end Atlas

/-! ## What records refer to -/

/-- A view refers to a member and to a class. -/
structure View.IsSound (v : View) (a : Atlas) : Prop where
  member : a.HoldsMember v.member
  ambiguousWith : ∀ id ∈ v.ambiguousWith, a.HoldsClass id

/-- All views of a roster refer to records. -/
def Roster.IsSound (roster : Roster) (a : Atlas) : Prop :=
  roster.All fun views => ∀ v ∈ views, v.IsSound a

/-- What a class refers to. -/
structure ClassBody.IsSound (c : ClassBody) (a : Atlas) : Prop where
  bases : ∀ edge ∈ c.bases, a.HoldsClass edge.target
  derived : ∀ edge ∈ c.derived, a.HoldsClass edge.target
  templateMaster : ∀ id ∈ c.templateMaster, a.HoldsClass id
  instances : c.instances.All a.HoldsClass
  variableInstances : c.variableInstances.All a.HoldsClass
  roster : c.roster.IsSound a
  arrowOperator : ∀ id ∈ c.arrowOperator, a.HoldsMember id
  categoryOf : ∀ id ∈ c.categoryOf, a.HoldsClass id

/-- What a namespace refers to. -/
structure NamespaceBody.IsSound (n : NamespaceBody) (a : Atlas) : Prop where
  usingDirectives : n.usingDirectives.All a.HoldsNamespace
  usingDeclarations : n.usingDeclarations.All a.HoldsTarget
  members : n.members.All fun ids => ∀ id ∈ ids, a.HoldsMember id

/-- All members in a section table are there. -/
def SectionTable.IsSound (t : SectionTable) (a : Atlas) : Prop :=
  ∀ entry ∈ t.sections, ∀ id ∈ entry.2, a.HoldsMember id

/-- What an entity refers to. Its kind says whether it is a class. -/
structure Entity.IsSound (e : Entity) (a : Atlas) : Prop where
  isClass : e.isClass = !e.kind.isNamespaceLike
  outer : ∀ id ∈ e.outer, a.Holds id
  innerClasses : ∀ id ∈ e.innerClasses, a.HoldsClass id
  innerNamespaces : ∀ id ∈ e.innerNamespaces, a.HoldsNamespace id
  sections : e.sections.IsSound a
  ofClass : ∀ c ∈ e.class?, c.IsSound a
  ofNamespace : ∀ n ∈ e.namespace?, n.IsSound a

/-- What a member refers to. -/
structure Member.IsSound (m : Member) (a : Atlas) : Prop where
  owner : ∀ id ∈ m.owner, a.Holds id
  templateMaster : ∀ id ∈ m.templateMaster, a.HoldsMember id
  category : ∀ id ∈ m.category, a.HoldsClass id
  categoryRelation : ∀ id ∈ m.categoryRelation, a.HoldsMember id

namespace Atlas

/-- Records stand in their places, are found by their names, and refer to records. -/
structure IsSound (a : Atlas) : Prop where
  entityIds : ∀ id e, a.entity? id = some e → e.id = .ofSlot id.slot
  memberIds : ∀ id m, a.member? id = some m → m.id = .ofSlot id.slot
  names : ∀ name id, a.find? name = some id →
    0 < id.number ∧ ∃ e, a.entity? id = some e ∧ e.name = name
  memberNames : ∀ name, a.membersNamed name =
    a.memberNumbers.filter fun id => (a.member? id).any fun m => m.name == name
  entities : ∀ id e, a.entity? id = some e → e.IsSound a
  members : ∀ id m, a.member? id = some m → m.IsSound a

/-- `b` is sound and has the records that `a` has. -/
structure GrowsSoundly (a b : Atlas) : Prop where
  isSound : b.IsSound
  keeps : a.Keeps b

end Atlas

theorem Entity.isNamespace_eq (e : Entity) : e.isNamespace = !e.isClass := by
  unfold isNamespace namespace? isClass class?
  cases e.body <;> rfl

/-! ## Records that are kept -/

section Mono

open Atlas

variable {a b c : Atlas}
variable {id : EntityId}

theorem Atlas.Keeps.refl (a : Atlas) : a.Keeps a :=
  ⟨fun _ e he => ⟨e, he, rfl⟩, Nat.le_refl _⟩

theorem Atlas.Keeps.trans (h : a.Keeps b) (h' : b.Keeps c) : a.Keeps c := by
  refine ⟨fun id e he => ?_, Nat.le_trans h.members h'.members⟩
  obtain ⟨e', he', hclass⟩ := h.entities id e he
  obtain ⟨e'', he'', hclass'⟩ := h'.entities id e' he'
  exact ⟨e'', he'', hclass'.trans hclass⟩

theorem Atlas.HoldsClass.mono (h : a.HoldsClass id) (hkeeps : a.Keeps b) : b.HoldsClass id := by
  obtain ⟨hpos, e, he, hclass⟩ := h
  obtain ⟨e', he', hclass'⟩ := hkeeps.entities id e he
  exact ⟨hpos, e', he', hclass'.trans hclass⟩

theorem Atlas.HoldsNamespace.mono (h : a.HoldsNamespace id) (hkeeps : a.Keeps b) :
    b.HoldsNamespace id := by
  obtain ⟨hpos, e, he, hnamespace⟩ := h
  obtain ⟨e', he', hclass'⟩ := hkeeps.entities id e he
  refine ⟨hpos, e', he', ?_⟩
  rw [e'.isNamespace_eq, hclass', ← e.isNamespace_eq]
  exact hnamespace

theorem Atlas.HoldsMember.mono {id : MemberId} (h : a.HoldsMember id) (hkeeps : a.Keeps b) :
    b.HoldsMember id :=
  ⟨h.1, Nat.le_trans h.2 hkeeps.members⟩

theorem Atlas.holds_iff : a.Holds id ↔ 0 < id.number ∧ ∃ e, a.entity? id = some e := by
  constructor
  · exact fun h => ⟨h.1, h.exists_entity⟩
  · rintro ⟨hpos, e, he⟩
    have hlt := slot_lt_of_entity? he
    refine ⟨hpos, ?_⟩
    unfold EntityId.slot at hlt
    omega

theorem Atlas.HoldsClass.holds (h : a.HoldsClass id) : a.Holds id := by
  obtain ⟨hpos, e, he, -⟩ := h
  exact holds_iff.mpr ⟨hpos, e, he⟩

theorem Atlas.Holds.keeps (h : a.Holds id) (hkeeps : a.Keeps b) : b.Holds id := by
  obtain ⟨e, he⟩ := h.exists_entity
  obtain ⟨e', he', -⟩ := hkeeps.entities id e he
  exact holds_iff.mpr ⟨h.1, e', he'⟩

theorem Atlas.Holds.holdsClass (h : a.Holds id) {c : ClassBody} (hc : a.class? id = some c) :
    a.HoldsClass id := by
  obtain ⟨e, he, hbody⟩ := (a.class?_eq_some_iff id c).mp hc
  exact ⟨h.1, e, he, by simp [Entity.isClass, hbody]⟩

theorem Atlas.Holds.holdsNamespace (h : a.Holds id) {n : NamespaceBody}
    (hn : a.requireNamespace id = .ok n) : a.HoldsNamespace id := by
  unfold requireNamespace at hn
  split at hn
  · cases hn
  · next e he =>
    split at hn
    · next hbody => exact ⟨h.1, e, he, by simp [Entity.isNamespace, hbody]⟩
    · cases hn

theorem Atlas.HoldsTarget.mono {target : UsingTarget} (h : a.HoldsTarget target)
    (hkeeps : a.Keeps b) : b.HoldsTarget target := by
  cases target with
  | entity id => exact Holds.keeps h hkeeps
  | member id => exact HoldsMember.mono h hkeeps

theorem View.IsSound.mono {v : View} (h : v.IsSound a) (hkeeps : a.Keeps b) : v.IsSound b where
  member := h.member.mono hkeeps
  ambiguousWith id hid := (h.ambiguousWith id hid).mono hkeeps

theorem Roster.IsSound.mono {roster : Roster} (h : roster.IsSound a) (hkeeps : a.Keeps b) :
    roster.IsSound b :=
  Dict.All.mono h fun _ hviews v hv => (hviews v hv).mono hkeeps

theorem ClassBody.IsSound.mono {c : ClassBody} (h : c.IsSound a) (hkeeps : a.Keeps b) :
    c.IsSound b where
  bases edge hedge := (h.bases edge hedge).mono hkeeps
  derived edge hedge := (h.derived edge hedge).mono hkeeps
  templateMaster id hid := (h.templateMaster id hid).mono hkeeps
  instances := h.instances.mono fun _ hid => hid.mono hkeeps
  variableInstances := h.variableInstances.mono fun _ hid => hid.mono hkeeps
  roster := h.roster.mono hkeeps
  arrowOperator id hid := (h.arrowOperator id hid).mono hkeeps
  categoryOf id hid := (h.categoryOf id hid).mono hkeeps

theorem NamespaceBody.IsSound.mono {n : NamespaceBody} (h : n.IsSound a) (hkeeps : a.Keeps b) :
    n.IsSound b where
  usingDirectives := h.usingDirectives.mono fun _ hid => hid.mono hkeeps
  usingDeclarations := h.usingDeclarations.mono fun _ htarget => htarget.mono hkeeps
  members := h.members.mono fun _ hids id hid => (hids id hid).mono hkeeps

theorem Entity.IsSound.mono {e : Entity} (h : e.IsSound a) (hkeeps : a.Keeps b) : e.IsSound b where
  isClass := h.isClass
  outer id hid := (h.outer id hid).keeps hkeeps
  innerClasses id hid := (h.innerClasses id hid).mono hkeeps
  innerNamespaces id hid := (h.innerNamespaces id hid).mono hkeeps
  sections entry hentry id hid := (h.sections entry hentry id hid).mono hkeeps
  ofClass c hc := (h.ofClass c hc).mono hkeeps
  ofNamespace n hn := (h.ofNamespace n hn).mono hkeeps

theorem Member.IsSound.mono {m : Member} (h : m.IsSound a) (hkeeps : a.Keeps b) : m.IsSound b where
  owner id hid := (h.owner id hid).keeps hkeeps
  templateMaster id hid := (h.templateMaster id hid).mono hkeeps
  category id hid := (h.category id hid).mono hkeeps
  categoryRelation id hid := (h.categoryRelation id hid).mono hkeeps

end Mono

/-! ## Changing an entity -/

theorem SectionTable.IsSound.file {a : Atlas} {t : SectionTable} (h : t.IsSound a) (s : Section)
    {id : MemberId} (hid : a.HoldsMember id) : (t.file s id).IsSound a := by
  unfold SectionTable.file SectionTable.IsSound at *
  generalize t.sections = entries at h
  induction entries with
  | nil => simpa [SectionTable.fileIn] using hid
  | cons entry rest ih =>
    rw [List.forall_mem_cons] at h
    unfold SectionTable.fileIn
    split
    · rw [List.forall_mem_cons]
      refine ⟨?_, h.2⟩
      split
      · exact h.1
      · intro id' hid'
        rcases List.mem_append.mp hid' with hid' | hid'
        · exact h.1 id' hid'
        · rw [List.mem_singleton.mp hid']
          exact hid
    · exact List.forall_mem_cons.mpr ⟨h.1, ih h.2⟩

theorem ClassBody.IsSound.noting {a : Atlas} {c : ClassBody} (h : c.IsSound a) (m : Member)
    {id : MemberId} (hid : a.HoldsMember id) {entry : Option View}
    (hentry : ∀ v ∈ entry, v.IsSound a) : (c.noting m id entry).IsSound a := by
  have harrow : ∀ id' ∈ some id, a.HoldsMember id' := by
    intro id' hid'
    cases hid'
    exact hid
  have hbare : (c.noting m id none).IsSound a := by
    unfold ClassBody.noting
    dsimp only
    split <;> split
    · exact { h with arrowOperator := harrow }
    · exact { h with arrowOperator := harrow }
    · exact { h with }
    · exact h
  cases entry with
  | none => exact hbare
  | some view =>
    have hroster := Dict.All.append hbare.roster m.name (hentry view rfl)
    exact { hbare with roster := hroster }

namespace Entity.IsSound

variable {a : Atlas} {e : Entity}

theorem modifyClass (h : e.IsSound a) {f : ClassBody → ClassBody}
    (hf : ∀ c, c.IsSound a → (f c).IsSound a) : (e.modifyClass f).IsSound a := by
  have hbody := h.ofClass
  unfold Entity.modifyClass class? at *
  cases heq : e.body with
  | ofClass c =>
    rw [heq] at hbody
    refine { h with isClass := ?_, ofClass := ?_, ofNamespace := ?_ }
    · have hclass := h.isClass
      unfold Entity.isClass class? at hclass ⊢
      rw [heq] at hclass
      exact hclass
    · intro c' hc'
      cases hc'
      exact hf c (hbody c rfl)
    · intro n hn
      cases hn
  | ofNamespace n => exact h

theorem modifyNamespace (h : e.IsSound a) (hf : ∀ n, n.IsSound a → (f n).IsSound a) :
    (e.modifyNamespace f).IsSound a := by
  have hbody := h.ofNamespace
  unfold Entity.modifyNamespace namespace? at *
  cases heq : e.body with
  | ofNamespace n =>
    rw [heq] at hbody
    refine { h with isClass := ?_, ofClass := ?_, ofNamespace := ?_ }
    · have hclass := h.isClass
      unfold Entity.isClass class? at hclass ⊢
      rw [heq] at hclass
      exact hclass
    · intro c hc
      cases hc
    · intro n' hn'
      cases hn'
      exact hf n (hbody n rfl)
  | ofClass c => exact h

theorem withSections (h : e.IsSound a) {sections : SectionTable} (hsections : sections.IsSound a) :
    Entity.IsSound { e with sections } a :=
  { h with sections := hsections }

theorem filed (h : e.IsSound a) (placement : Placement) {id : MemberId} (hid : a.HoldsMember id) :
    (e.filed placement id).IsSound a := by
  have hdeclared := h.sections.file placement.declaration hid
  have hentity : ∀ {sections : SectionTable}, sections.IsSound a →
      Entity.IsSound (if placement.keepsSimple then { e with sections }
        else Entity.modifyClass { e with sections } fun c => { c with isSimple := false }) a := by
    intro sections hsections
    split
    · exact h.withSections hsections
    · exact (h.withSections hsections).modifyClass fun c hc => { hc with }
  unfold Entity.filed
  cases placement.documentation with
  | some s => exact hentity (hdeclared.file s hid)
  | none => exact hentity hdeclared

end Entity.IsSound

namespace Entity

@[simp] theorem isClass_modifyClass (e : Entity) (f : ClassBody → ClassBody) :
    (e.modifyClass f).isClass = e.isClass := by
  rw [isClass, class?_modifyClass, Option.isSome_map, isClass]

@[simp] theorem isClass_modifyNamespace (e : Entity) (f : NamespaceBody → NamespaceBody) :
    (e.modifyNamespace f).isClass = e.isClass := by
  rw [isClass, class?_modifyNamespace, isClass]

/-- What an entity is known by. -/
def badge (e : Entity) : EntityId × String × Bool :=
  (e.id, e.name, e.isClass)

@[simp] theorem badge_modifyClass (e : Entity) (f : ClassBody → ClassBody) :
    (e.modifyClass f).badge = e.badge := by
  unfold badge
  rw [isClass_modifyClass]
  unfold modifyClass
  split <;> rfl

@[simp] theorem badge_modifyNamespace (e : Entity) (f : NamespaceBody → NamespaceBody) :
    (e.modifyNamespace f).badge = e.badge := by
  unfold badge
  rw [isClass_modifyNamespace]
  unfold modifyNamespace
  split <;> rfl

theorem badge_filed (e : Entity) (placement : Placement) (id : MemberId) :
    (e.filed placement id).badge = e.badge := by
  unfold filed
  dsimp only
  split
  · rfl
  · exact badge_modifyClass _ _

theorem isSound_declare (a : Atlas) (id : EntityId) (name : String) (kind : EntityKind)
    (location : Location) (isSimple hasSubGrouping : Bool) :
    (declare id name kind location isSimple hasSubGrouping).IsSound a where
  isClass := by
    unfold Entity.isClass class? declare
    cases kind.isNamespaceLike <;> rfl
  outer id hid := by cases hid
  innerClasses id hid := by cases hid
  innerNamespaces id hid := by cases hid
  sections entry hentry := by cases hentry
  ofClass c hc := by
    unfold class? declare at hc
    cases hkind : kind.isNamespaceLike with
    | true => simp [hkind] at hc
    | false =>
      obtain rfl : { isSimple, hasSubGrouping } = c := by simpa [hkind] using hc
      refine ⟨?_, ?_, ?_, .empty _, .empty _, .empty _, ?_, ?_⟩ <;> simp
  ofNamespace n hn := by
    unfold namespace? declare at hn
    cases hkind : kind.isNamespaceLike with
    | false => simp [hkind] at hn
    | true =>
      obtain rfl : ({} : NamespaceBody) = n := by simpa [hkind] using hn
      exact ⟨.empty _, .empty _, .empty _⟩

end Entity

namespace Atlas

variable {a b c : Atlas}

theorem IsSound.refl (h : a.IsSound) : a.GrowsSoundly a :=
  ⟨h, .refl a⟩

theorem GrowsSoundly.trans (h : a.GrowsSoundly b) (h' : b.GrowsSoundly c) : a.GrowsSoundly c :=
  ⟨h'.isSound, h.keeps.trans h'.keeps⟩

theorem GrowsSoundly.foldl {σ α : Type} (view : σ → Atlas) {f : σ → α → σ} {xs : List α}
    (hf : ∀ s, a.GrowsSoundly (view s) → ∀ x ∈ xs, (view s).GrowsSoundly (view (f s x))) {s : σ}
    (hs : a.GrowsSoundly (view s)) : a.GrowsSoundly (view (xs.foldl f s)) := by
  induction xs generalizing s with
  | nil => exact hs
  | cons x xs ih =>
    refine ih (fun s hs y hy => hf s hs y (List.mem_cons_of_mem _ hy)) ?_
    exact hs.trans (hf s hs x List.mem_cons_self)

theorem GrowsSoundly.foldlM {σ α : Type} (view : σ → Atlas) {f : σ → α → Noted σ} {xs : List α}
    (hf : ∀ s, a.GrowsSoundly (view s) → ∀ x ∈ xs, (view s).GrowsSoundly (view (f s x).value))
    {s : σ} (hs : a.GrowsSoundly (view s)) : a.GrowsSoundly (view (xs.foldlM f s).value) := by
  rw [Noted.value_foldlM]
  exact GrowsSoundly.foldl view hf hs

/-! ## Changing records -/

theorem keeps_modifyEntity (a : Atlas) (id : EntityId) {f : Entity → Entity}
    (hf : ∀ e, (f e).isClass = e.isClass) : a.Keeps (a.modifyEntity id f) := by
  refine ⟨fun id' e he => ?_, Nat.le_refl _⟩
  rw [entity?_modifyEntity, he]
  split
  · exact ⟨f e, rfl, hf e⟩
  · exact ⟨e, rfl, rfl⟩

theorem holdsClass_allocate (a : Atlas) (name : String) {kind : EntityKind}
    (hkind : kind.isNamespaceLike = false) (location : Location) :
    (a.allocate name kind location).1.HoldsClass (.ofSlot a.entities.size) := by
  have hentity := a.entity?_allocate name kind location (.ofSlot a.entities.size)
  rw [if_pos (EntityId.slot_ofSlot _)] at hentity
  refine ⟨Nat.succ_pos _, _, hentity, ?_⟩
  rw [(Entity.isSound_declare a _ _ _ _ _ _).isClass]
  exact congrArg not hkind

namespace IsSound

variable {name : String} {id : EntityId}

section

variable (h : a.IsSound) (id : EntityId)

include h

/-- An entity may be changed if its badge stays and what it refers to is there. -/
theorem modifyEntity {f : Entity → Entity} (hbadge : ∀ e, (f e).badge = e.badge)
    (hf : ∀ e, e.IsSound a → (f e).IsSound a) : a.GrowsSoundly (a.modifyEntity id f) := by
  have hid : ∀ e, (f e).id = e.id := fun e => congrArg (·.1) (hbadge e)
  have hname : ∀ e, (f e).name = e.name := fun e => congrArg (·.2.1) (hbadge e)
  have hkeeps := a.keeps_modifyEntity id fun e => congrArg (·.2.2) (hbadge e)
  refine ⟨⟨fun id' e he => ?_, h.memberIds, fun name id' hname' => ?_, h.memberNames,
    fun id' e he => ?_, fun id' m hm => (h.members id' m hm).mono hkeeps⟩, hkeeps⟩
  · rw [entity?_modifyEntity] at he
    split at he
    · obtain ⟨e', he', rfl⟩ := Option.map_eq_some_iff.mp he
      rw [hid]
      exact h.entityIds id' e' he'
    · exact h.entityIds id' e he
  · obtain ⟨hpos, e, he, heq⟩ := h.names name id' hname'
    refine ⟨hpos, ?_⟩
    rw [entity?_modifyEntity, he]
    split
    · exact ⟨f e, rfl, (hname e).trans heq⟩
    · exact ⟨e, rfl, heq⟩
  · rw [entity?_modifyEntity] at he
    split at he
    · obtain ⟨e', he', rfl⟩ := Option.map_eq_some_iff.mp he
      exact (hf e' (h.entities id' e' he')).mono hkeeps
    · exact (h.entities id' e he).mono hkeeps

theorem modifyClass {f : ClassBody → ClassBody} (hf : ∀ c, c.IsSound a → (f c).IsSound a) :
    a.GrowsSoundly (a.modifyClass id f) :=
  h.modifyEntity id (fun e => e.badge_modifyClass f) fun _ he => he.modifyClass hf

theorem modifyNamespace (hf : ∀ n, n.IsSound a → (f n).IsSound a) :
    a.GrowsSoundly (a.modifyNamespace id f) :=
  h.modifyEntity id (fun e => e.badge_modifyNamespace f) fun _ he => he.modifyNamespace hf

theorem modifyMember (id : MemberId) {f : Member → Member}
    (hkeys : ∀ m, (f m).id = m.id ∧ (f m).name = m.name) (hf : ∀ m, m.IsSound a → (f m).IsSound a) :
    a.GrowsSoundly (a.modifyMember id f) := by
  have hkeeps : a.Keeps (a.modifyMember id f) :=
    ⟨fun _ e he => ⟨e, he, rfl⟩, by simp [Atlas.modifyMember]⟩
  have hmember' : ∀ id', (a.modifyMember id f).member? id' =
      if id.slot = id'.slot then (a.member? id').map f else a.member? id' := by
    intro id'
    unfold member? Atlas.modifyMember
    rw [Array.getElem?_modify]
  have hmember : ∀ id' m, (a.modifyMember id f).member? id' = some m →
      ∃ m', a.member? id' = some m' ∧ (m = f m' ∨ m = m') := by
    intro id' m hm
    rw [hmember'] at hm
    split at hm
    · obtain ⟨m', hm', rfl⟩ := Option.map_eq_some_iff.mp hm
      exact ⟨m', hm', .inl rfl⟩
    · exact ⟨m, hm, .inr rfl⟩
  refine ⟨⟨h.entityIds, fun id' m hm => ?_, h.names, fun name => ?_,
    fun id' e he => (h.entities id' e he).mono hkeeps, fun id' m hm => ?_⟩, hkeeps⟩
  · obtain ⟨m', hm', rfl | rfl⟩ := hmember id' m hm
    · rw [(hkeys m').1]
      exact h.memberIds id' m' hm'
    · exact h.memberIds id' m hm'
  · have hnumbers : (a.modifyMember id f).memberNumbers = a.memberNumbers := by
      simp [memberNumbers, Atlas.modifyMember]
    refine (h.memberNames name).trans ?_
    rw [hnumbers]
    refine List.filter_congr fun id' _ => ?_
    rw [hmember']
    split
    · cases a.member? id' with
      | none => rfl
      | some m => simp [(hkeys m).2]
    · rfl
  · obtain ⟨m', hm', rfl | rfl⟩ := hmember id' m hm
    · exact (hf m' (h.members id' m' hm')).mono hkeeps
    · exact (h.members id' m hm').mono hkeeps

end

/-! ## Adding records -/

theorem empty (options : Options) : (Atlas.empty options).IsSound := by
  have hnone : ∀ id, (Atlas.empty options).entity? id = none := by simp [Atlas.empty, entity?]
  have hnone' : ∀ id, (Atlas.empty options).member? id = none := by simp [Atlas.empty, member?]
  refine ⟨fun id e he => ?_, fun id m hm => ?_, fun name id hname => ?_, fun name => rfl,
    fun id e he => ?_, fun id m hm => ?_⟩
  · cases he
  · cases hm
  · cases hname
  · cases he
  · cases hm

section

variable (h : a.IsSound)

include h

theorem allocate (name : String) (kind : EntityKind) (location : Location) :
    a.GrowsSoundly (a.allocate name kind location).1 := by
  have hkeeps : a.Keeps (a.allocate name kind location).1 := by
    refine ⟨fun id e he => ⟨e, ?_, rfl⟩, Nat.le_refl _⟩
    rw [entity?_allocate, if_neg (Nat.ne_of_lt (slot_lt_of_entity? he))]
    exact he
  refine ⟨⟨fun id e he => ?_, h.memberIds, fun name' id hname => ?_, h.memberNames,
    fun id e he => ?_, fun id m hm => (h.members id m hm).mono hkeeps⟩, hkeeps⟩
  · rw [entity?_allocate] at he
    split at he
    · next hslot =>
      cases he
      rw [hslot]
      rfl
    · exact h.entityIds id e he
  · obtain ⟨hpos, e, he, heq⟩ := h.names name' id hname
    refine ⟨hpos, e, ?_, heq⟩
    rw [entity?_allocate, if_neg (Nat.ne_of_lt (slot_lt_of_entity? he))]
    exact he
  · rw [entity?_allocate] at he
    split at he
    · cases he
      exact Entity.isSound_declare _ _ _ _ _ _ _
    · exact (h.entities id e he).mono hkeeps

theorem withName {e : Entity} (hpos : 0 < id.number) (he : a.entity? id = some e)
    (hname : e.name = name) : a.GrowsSoundly { a with names := a.names.insert name id } := by
  have hkeeps : a.Keeps { a with names := a.names.insert name id } :=
    ⟨fun _ e he => ⟨e, he, rfl⟩, Nat.le_refl _⟩
  refine ⟨⟨h.entityIds, h.memberIds, fun name' id' hfind => ?_, h.memberNames,
    fun id e he => (h.entities id e he).mono hkeeps,
    fun id m hm => (h.members id m hm).mono hkeeps⟩, hkeeps⟩
  unfold find? at hfind
  rw [Dict.get?_insert] at hfind
  split at hfind
  · next heq =>
    cases hfind
    exact ⟨hpos, e, he, hname.trans heq.symm⟩
  · exact h.names name' id' hfind

theorem holds_of_find? (hfind : a.find? name = some id) : a.Holds id := by
  obtain ⟨hpos, e, he, -⟩ := h.names name id hfind
  exact holds_iff.mpr ⟨hpos, e, he⟩

theorem register (name : String) (kind : EntityKind) (location : Location) :
    a.GrowsSoundly (a.register name kind location).1 ∧
      (a.register name kind location).1.Holds (a.register name kind location).2 := by
  unfold Atlas.register
  split
  · next id hfind => exact ⟨h.refl, h.holds_of_find? hfind⟩
  · have hallocated := h.allocate name kind location
    have hentity := a.entity?_allocate name kind location (.ofSlot a.entities.size)
    rw [if_pos (EntityId.slot_ofSlot _)] at hentity
    have hnamed := hallocated.isSound.withName (Nat.succ_pos _) hentity rfl
    refine ⟨hallocated.trans hnamed, ?_⟩
    exact holds_iff.mpr ⟨Nat.succ_pos _, _, hentity⟩

theorem membersNamed_push {m : Member} (hmembers : b.members = a.members.push m)
    (hnames : b.memberNames = a.memberNames.append m.name (.ofSlot a.members.size))
    (name : String) :
    b.membersNamed name =
      b.memberNumbers.filter fun id => (b.member? id).any fun m => m.name == name := by
  have hold : (a.memberNumbers.filter fun id => (b.member? id).any fun m => m.name == name) =
      a.membersNamed name := by
    rw [h.memberNames name]
    refine List.filter_congr fun id hid => ?_
    obtain ⟨slot, hslot, rfl⟩ := List.mem_map.mp hid
    rw [a.member?_push hmembers, MemberId.slot_ofSlot,
      if_neg (Nat.ne_of_lt (List.mem_range.mp hslot))]
  have hnumbers : b.memberNumbers = a.memberNumbers ++ [.ofSlot a.members.size] := by
    simp [memberNumbers, hmembers, List.range_succ]
  have hnew : b.member? (.ofSlot a.members.size) = some m := by
    rw [a.member?_push hmembers, MemberId.slot_ofSlot, if_pos rfl]
  have hnamed : b.membersNamed name =
      if name = m.name then a.membersNamed name ++ [.ofSlot a.members.size]
      else a.membersNamed name := by
    unfold membersNamed
    rw [hnames, Dict.get?_append]
    split
    · next heq =>
      subst heq
      rfl
    · rfl
  rw [hnumbers, List.filter_append, hold, hnamed]
  by_cases heq : name = m.name
  · simp [hnew, heq]
  · simp [hnew, heq, Ne.symm heq]

theorem addMember (owner : Option EntityId) (m : Member) (hm : { m with owner }.IsSound a) :
    a.GrowsSoundly (a.addMember owner m).1 ∧
      (a.addMember owner m).1.HoldsMember (a.addMember owner m).2 := by
  obtain ⟨language, flags, -, heq⟩ := a.exists_addMember_eq owner m
  have hmembers : (a.addMember owner m).1.members = a.members.push
      { m with id := .ofSlot a.members.size, owner, language, flags } := by rw [heq]
  have hnames : (a.addMember owner m).1.memberNames =
      a.memberNames.append m.name (.ofSlot a.members.size) := by rw [heq]
  have hsize : (a.addMember owner m).1.members.size = a.members.size + 1 := by
    rw [hmembers, Array.size_push]
  have hkeeps : a.Keeps (a.addMember owner m).1 := ⟨fun _ e he => ⟨e, he, rfl⟩, by omega⟩
  refine ⟨⟨⟨h.entityIds, fun id m' hm' => ?_, h.names, h.membersNamed_push hmembers hnames,
    fun id e he => (h.entities id e he).mono hkeeps, fun id m' hm' => ?_⟩, hkeeps⟩,
    Nat.succ_pos _, Nat.le_of_eq hsize.symm⟩
  · rw [a.member?_push hmembers] at hm'
    split at hm'
    · next hslot =>
      cases hm'
      rw [hslot]
    · exact h.memberIds id m' hm'
  · rw [a.member?_push hmembers] at hm'
    split at hm'
    · cases hm'
      have hsound := hm.mono hkeeps
      exact ⟨hsound.owner, hsound.templateMaster, hsound.category, hsound.categoryRelation⟩
    · exact (h.members id m' hm').mono hkeeps

end

/-! ## What the numbers and the indices of a sound atlas say -/

variable (h : a.IsSound)

include h

theorem entity_of_mem {e : Entity} (he : e ∈ a.entities) : e.IsSound a := by
  obtain ⟨slot, hslot, rfl⟩ := Array.mem_iff_getElem.mp he
  exact h.entities (.ofSlot slot) _ (Array.getElem?_eq_getElem hslot)

theorem member_of_mem {m : Member} (hm : m ∈ a.members) : m.IsSound a := by
  obtain ⟨slot, hslot, rfl⟩ := Array.mem_iff_getElem.mp hm
  exact h.members (.ofSlot slot) _ (Array.getElem?_eq_getElem hslot)

theorem isNumbered : a.IsNumbered :=
  fun slot hslot => h.entityIds (.ofSlot slot) _ (Array.getElem?_eq_getElem hslot)

theorem holds_id {e : Entity} (he : e ∈ a.entities) : a.Holds e.id := by
  obtain ⟨slot, hslot, rfl⟩ := Array.mem_iff_getElem.mp he
  rw [h.isNumbered slot hslot]
  exact ⟨Nat.succ_pos slot, hslot⟩

theorem map_entity_number :
    a.entities.toList.map (·.id.number) = List.range' 1 a.entities.size := by
  refine List.ext_getElem (by simp) fun slot hslot _ => ?_
  have hlt : slot < a.entities.size := by simpa using hslot
  rw [List.getElem_map, List.getElem_range', Array.getElem_toList, h.isNumbered slot hlt]
  show slot + 1 = _
  omega

theorem map_member_number : a.members.toList.map (·.id.number) = List.range' 1 a.members.size := by
  refine List.ext_getElem (by simp) fun slot hslot _ => ?_
  have hlt : slot < a.members.size := by simpa using hslot
  have hid := h.memberIds (.ofSlot slot) _ (Array.getElem?_eq_getElem hlt)
  rw [List.getElem_map, List.getElem_range', Array.getElem_toList, hid]
  show slot + 1 = _
  omega

theorem exists_of_find? (hfind : a.find? name = some id) :
    ∃ e, a.entity? id = some e ∧ e.id = id ∧ e.name = name := by
  obtain ⟨hpos, e, he, hname⟩ := h.names name id hfind
  refine ⟨e, he, ?_, hname⟩
  rw [h.entityIds id e he]
  exact congrArg EntityId.mk (Nat.sub_add_cancel hpos)

theorem name_of_find? (hfind : a.find? name = some id) : a.name id = name := by
  obtain ⟨-, e, he, hname⟩ := h.names name id hfind
  rw [Atlas.name, he]
  exact hname

theorem mem_membersNamed_iff {id : MemberId} :
    id ∈ a.membersNamed name ↔ ∃ m ∈ a.members, m.id = id ∧ m.name = name := by
  rw [h.memberNames, List.mem_filter]
  constructor
  · rintro ⟨hid, hnamed⟩
    obtain ⟨slot, hslot, rfl⟩ := List.mem_map.mp hid
    have hget := Array.getElem?_eq_getElem (List.mem_range.mp hslot)
    refine ⟨_, Array.mem_of_getElem? hget, h.memberIds (.ofSlot slot) _ hget, ?_⟩
    rw [member?, MemberId.slot_ofSlot, hget] at hnamed
    exact eq_of_beq hnamed
  · rintro ⟨m, hm, rfl, rfl⟩
    obtain ⟨slot, hslot, rfl⟩ := Array.mem_iff_getElem.mp hm
    have hget := Array.getElem?_eq_getElem hslot
    rw [h.memberIds (.ofSlot slot) _ hget, MemberId.slot_ofSlot]
    refine ⟨List.mem_map.mpr ⟨slot, List.mem_range.mpr hslot, rfl⟩, ?_⟩
    rw [member?, MemberId.slot_ofSlot, hget]
    simp

theorem pairwise_membersNamed (name : String) :
    (a.membersNamed name).Pairwise fun id id' => id.number < id'.number := by
  rw [h.memberNames]
  refine List.Pairwise.filter _ (List.pairwise_map.mpr ?_)
  exact List.pairwise_lt_range.imp fun hlt => Nat.succ_lt_succ hlt

end IsSound

end Atlas

end SymbolAtlas
