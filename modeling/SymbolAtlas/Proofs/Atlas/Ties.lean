import SymbolAtlas.Atlas.Instance
import SymbolAtlas.Proofs.Atlas.Adoption

/-!
# What ties entities together

Apart from its members, an entity has a standing among the others: a name, a scope, and how it came to
be there. A class has a lineage besides, and a namespace uses others. Whatever is done with members
leaves all that as it is, and so does a merge; the using relations are changed by themselves. What is
left of an entity when its members are taken away is its skeleton.
-/

set_option autoImplicit false

namespace SymbolAtlas

/-- Who an entity is among the others. -/
structure Standing where
  name : String
  kind : EntityKind
  outer : Option EntityId
  isArtificial : Bool
  isUsedOnly : Bool

/-- What ties a class to other classes. -/
structure Lineage where
  bases : List BaseEdge
  formals : List Argument
  templateMaster : Option EntityId
  instances : Dict EntityId

def ClassBody.lineage (c : ClassBody) : Lineage where
  bases := c.bases
  formals := c.formals
  templateMaster := c.templateMaster
  instances := c.instances

/-- The class without its members and what follows from them. -/
def ClassBody.skeleton (c : ClassBody) : ClassBody :=
  { c with
    traits.isAbstract := false
    roster := .empty
    isMerged := false
    isSimple := false
    arrowOperator := none }

/-- The namespace without its members. -/
def NamespaceBody.skeleton (n : NamespaceBody) : NamespaceBody :=
  { n with members := .empty }

namespace Entity

variable {f : ClassBody → ClassBody} (e : Entity)

/-- The entity without its members and what follows from them. -/
def skeleton (e : Entity) : Entity :=
  { e with
    sections := {}
    body :=
      match e.body with
      | .ofClass c => .ofClass c.skeleton
      | .ofNamespace n => .ofNamespace n.skeleton }

def standing (e : Entity) : Standing where
  name := e.name
  kind := e.kind
  outer := e.outer
  isArtificial := e.flags.isArtificial
  isUsedOnly := e.flags.isUsedOnly

/-- The lineage of an entity; a namespace has none. -/
def lineage? (e : Entity) : Option Lineage :=
  e.class?.map (·.lineage)

/-- The using-directives of an entity; a class has none. -/
def used? (e : Entity) : Option (Dict EntityId) :=
  e.namespace?.map (·.usingDirectives)

/-- Standing and lineage. -/
def kin (e : Entity) : Standing × Option Lineage :=
  (e.standing, e.lineage?)

/-- All but the members. -/
def ties (e : Entity) : (Standing × Option Lineage) × Option (Dict EntityId) :=
  (e.kin, e.used?)

/-! ## Changing an entity -/

@[simp] theorem standing_modifyClass (f : ClassBody → ClassBody) :
    (e.modifyClass f).standing = e.standing := by
  unfold modifyClass
  split <;> rfl

@[simp] theorem standing_modifyNamespace (f : NamespaceBody → NamespaceBody) :
    (e.modifyNamespace f).standing = e.standing := by
  unfold modifyNamespace
  split <;> rfl

theorem lineage?_modifyClass {g : Lineage → Lineage} (hf : ∀ c, (f c).lineage = g c.lineage) :
    (e.modifyClass f).lineage? = e.lineage?.map g :=
  e.map_class?_modifyClass hf

@[simp] theorem lineage?_modifyNamespace (f : NamespaceBody → NamespaceBody) :
    (e.modifyNamespace f).lineage? = e.lineage? := by
  rw [lineage?, class?_modifyNamespace, lineage?]

@[simp] theorem used?_modifyClass (f : ClassBody → ClassBody) :
    (e.modifyClass f).used? = e.used? := by
  rw [used?, namespace?_modifyClass, used?]

theorem ties_modifyClass (hf : ∀ c, (f c).lineage = c.lineage) :
    (e.modifyClass f).ties = e.ties := by
  have hlineage := e.lineage?_modifyClass (g := fun l => l) hf
  rw [Option.map_id'] at hlineage
  unfold ties kin
  rw [standing_modifyClass, hlineage, used?_modifyClass]

theorem kin_modifyNamespace (f : NamespaceBody → NamespaceBody) :
    (e.modifyNamespace f).kin = e.kin := by
  unfold kin
  rw [standing_modifyNamespace, lineage?_modifyNamespace]

theorem ties_modifyNamespace {f : NamespaceBody → NamespaceBody}
    (hf : ∀ n, (f n).usingDirectives = n.usingDirectives) :
    (e.modifyNamespace f).ties = e.ties := by
  have hused : (e.modifyNamespace f).used? = e.used? := by
    unfold used?
    rw [namespace?_modifyNamespace, Option.map_map]
    congr 1
    funext n
    exact hf n
  unfold ties
  rw [kin_modifyNamespace, hused]

theorem ties_skeleton : e.skeleton.ties = e.ties := by
  unfold skeleton ties kin standing lineage? used? class? namespace?
  cases e.body <;> rfl

theorem kin_skeleton : e.skeleton.kin = e.kin :=
  congrArg Prod.fst e.ties_skeleton

theorem skeleton_modifyClass (hf : ∀ c, (f c).skeleton = c.skeleton) :
    (e.modifyClass f).skeleton = e.skeleton := by
  unfold modifyClass
  split
  · next c hbody =>
    unfold skeleton
    rw [hbody]
    dsimp only
    rw [hf c]
  · rfl

theorem skeleton_modifyNamespace {f : NamespaceBody → NamespaceBody}
    (hf : ∀ n, (f n).skeleton = n.skeleton) : (e.modifyNamespace f).skeleton = e.skeleton := by
  unfold modifyNamespace
  split
  · rfl
  · next n hbody =>
    unfold skeleton
    rw [hbody]
    dsimp only
    rw [hf n]

theorem skeleton_filed (placement : Placement) (id : MemberId) :
    (e.filed placement id).skeleton = e.skeleton := by
  unfold filed
  dsimp only
  split
  · rfl
  · refine (skeleton_modifyClass _ ?_).trans rfl
    intro c
    rfl

theorem skeleton_posting (m : Member) (id : MemberId) :
    (e.posting m id).skeleton = e.skeleton := by
  unfold posting
  split <;> exact e.skeleton_modifyNamespace fun n => rfl

end Entity

theorem ClassBody.skeleton_noting (c : ClassBody) (m : Member) (id : MemberId)
    (entry : Option View) : (c.noting m id entry).skeleton = c.skeleton := by
  unfold noting
  cases entry <;> dsimp only <;> split <;> split <;> rfl

theorem Entity.lineage?_declare {id : EntityId} {name : String} {kind : EntityKind}
    {location : Location} {isSimple hasSubGrouping : Bool} {l : Lineage}
    (h : (declare id name kind location isSimple hasSubGrouping).lineage? = some l) :
    l = { bases := [], formals := [], templateMaster := none, instances := .empty } := by
  unfold declare lineage? class? at h
  cases hkind : kind.isNamespaceLike with
  | true =>
    rw [hkind] at h
    cases h
  | false =>
    rw [hkind] at h
    cases h
    rfl

namespace Atlas

/-- The standing of the entity with a number. -/
def standing? (a : Atlas) (id : EntityId) : Option Standing :=
  (a.entity? id).map (·.standing)

/-- The lineage of the class with a number. -/
def lineage? (a : Atlas) (id : EntityId) : Option Lineage :=
  (a.entity? id).bind (·.lineage?)

/-- The number is that of an entity. -/
def Holds (a : Atlas) (id : EntityId) : Prop :=
  0 < id.number ∧ id.number ≤ a.entities.size

/-- Two atlases with the same names, of which a view shows the same. -/
def Agrees {β : Type} (view : Entity → β) (a b : Atlas) : Prop :=
  b.names = a.names ∧ b.entities.map view = a.entities.map view

/-! ## Reading -/

section

variable (a : Atlas) (id : EntityId)

theorem lineage?_eq_map : a.lineage? id = (a.class? id).map (·.lineage) := by
  unfold lineage? class?
  cases a.entity? id with
  | none => rfl
  | some e => rfl

theorem bases_eq_lineage? : a.bases id = ((a.lineage? id).map (·.bases)).getD [] := by
  rw [lineage?_eq_map, Option.map_map]
  rfl

theorem bases_of_lineage? {a : Atlas} {id : EntityId} {l : Lineage} (h : a.lineage? id = some l) :
    a.bases id = l.bases := by
  rw [bases_eq_lineage?, h]
  rfl

theorem name_eq_standing? : a.name id = ((a.standing? id).map (·.name)).getD "" := by
  unfold name standing?
  rw [Option.map_map]
  rfl

theorem genericOf_eq_lineage? :
    a.genericOf id = ((a.lineage? id).bind (·.templateMaster)).getD id := by
  rw [lineage?_eq_map, Option.bind_map]
  rfl

theorem isSome_class?_eq : (a.class? id).isSome = (a.lineage? id).isSome := by
  rw [lineage?_eq_map, Option.isSome_map]

theorem any_isTemplate_eq :
    (a.class? id).any (·.isTemplate) = (a.lineage? id).any fun l => !l.formals.isEmpty := by
  rw [lineage?_eq_map, Option.any_map]
  rfl

theorem standing?_isSome_iff : (a.standing? id).isSome = true ↔ id.slot < a.entities.size := by
  unfold standing? entity?
  simp

end

theorem isSome_standing?_of_lineage? {a : Atlas} {id : EntityId} {l : Lineage}
    (h : a.lineage? id = some l) : (a.standing? id).isSome = true := by
  obtain ⟨e, he, -⟩ := Option.bind_eq_some_iff.mp h
  rw [standing?, he]
  rfl

namespace Holds

variable {a b : Atlas} {id id' : EntityId}

theorem mono (h : a.Holds id) (hsize : a.entities.size ≤ b.entities.size) : b.Holds id :=
  ⟨h.1, Nat.le_trans h.2 hsize⟩

theorem slot_lt (h : a.Holds id) : id.slot < a.entities.size := by
  have hpos := h.1
  have hle := h.2
  unfold EntityId.slot
  omega

theorem eq_of_slot (h : a.Holds id) (h' : b.Holds id') (hslot : id.slot = id'.slot) :
    id = id' :=
  EntityId.eq_of_slot h.1 h'.1 hslot

theorem exists_entity (h : a.Holds id) : ∃ e, a.entity? id = some e :=
  ⟨_, Array.getElem?_eq_getElem h.slot_lt⟩

end Holds

theorem holds_ofSlot {a : Atlas} {slot : Nat} (h : slot < a.entities.size) :
    a.Holds (.ofSlot slot) :=
  ⟨Nat.succ_pos slot, h⟩

/-! ## Agreement -/

namespace Agrees

variable {β γ : Type} {view : Entity → β} {a b c : Atlas}

theorem refl (view : Entity → β) (a : Atlas) : Agrees view a a :=
  ⟨rfl, rfl⟩

section

variable (h : Agrees view a b) (g : β → γ)

include h

theorem trans (h' : Agrees view b c) : Agrees view a c :=
  ⟨h'.1.trans h.1, h'.2.trans h.2⟩

theorem map : Agrees (fun e => g (view e)) a b := by
  refine ⟨h.1, ?_⟩
  have hmap := congrArg (Array.map g) h.2
  rw [Array.map_map, Array.map_map] at hmap
  exact hmap

theorem size : b.entities.size = a.entities.size :=
  size_of_map_eq h.2

theorem entity?_eq (id : EntityId) : (b.entity? id).map view = (a.entity? id).map view :=
  read_of_map_eq h.2 (f := Option.map view) (fun _ _ => congrArg some) id

theorem exists_before {id : EntityId} {e : Entity} (he : b.entity? id = some e) :
    ∃ e', a.entity? id = some e' ∧ view e' = view e := by
  have hview := h.entity?_eq id
  rw [he] at hview
  exact Option.map_eq_some_iff.mp hview.symm

theorem find?_eq (name : String) : b.find? name = a.find? name := by
  rw [find?, h.1, find?]

end

theorem modifyEntity (a : Atlas) (id : EntityId) {f : Entity → Entity}
    (hf : ∀ e, view (f e) = view e) : Agrees view a (a.modifyEntity id f) :=
  ⟨rfl, a.map_modifyEntity id hf⟩

theorem foldl {α : Type} {f : Atlas → α → Atlas} (hf : ∀ a x, Agrees view a (f a x))
    (xs : List α) (a : Atlas) : Agrees view a (xs.foldl f a) :=
  foldl_kept (P := fun b => Agrees view a b) (fun b x h => h.trans (hf b x)) xs (.refl view a)

theorem kin (h : Agrees Entity.ties a b) : Agrees Entity.kin a b :=
  h.map Prod.fst

theorem standing?_eq (h : Agrees Entity.kin a b) (id : EntityId) :
    b.standing? id = a.standing? id :=
  (h.map Prod.fst).entity?_eq id

theorem lineage?_eq (h : Agrees Entity.kin a b) (id : EntityId) :
    b.lineage? id = a.lineage? id :=
  read_of_map_eq h.2 (f := fun x => x.bind (·.lineage?)) (fun _ _ => congrArg Prod.snd) id

end Agrees

/-! ## Members -/

theorem agrees_modifyClass (a : Atlas) (id : EntityId) {f : ClassBody → ClassBody}
    (hf : ∀ c, (f c).lineage = c.lineage) : Agrees Entity.ties a (a.modifyClass id f) :=
  .modifyEntity a id fun e => e.ties_modifyClass hf

/-- The same options, names and skeletons: at most members differ. -/
structure SharesSkeleton (a b : Atlas) : Prop where
  options : b.options = a.options
  agrees : Agrees Entity.skeleton a b

namespace SharesSkeleton

variable {a b c : Atlas}

theorem refl (a : Atlas) : a.SharesSkeleton a :=
  ⟨rfl, .refl _ a⟩

theorem trans (h : a.SharesSkeleton b) (h' : b.SharesSkeleton c) : a.SharesSkeleton c :=
  ⟨h'.options.trans h.options, h.agrees.trans h'.agrees⟩

theorem modifyEntity (a : Atlas) (id : EntityId) {f : Entity → Entity}
    (hf : ∀ e, (f e).skeleton = e.skeleton) : a.SharesSkeleton (a.modifyEntity id f) :=
  ⟨rfl, .modifyEntity a id hf⟩

theorem modifyClass (a : Atlas) (id : EntityId) {f : ClassBody → ClassBody}
    (hf : ∀ c, (f c).skeleton = c.skeleton) : a.SharesSkeleton (a.modifyClass id f) :=
  modifyEntity a id fun e => e.skeleton_modifyClass hf

theorem foldlM {α : Type} {f : Atlas → α → Noted Atlas}
    (hf : ∀ (a : Atlas) x, a.SharesSkeleton (f a x).value) (xs : List α) (a : Atlas) :
    a.SharesSkeleton (xs.foldlM f a).value :=
  Noted.foldlM_kept (P := fun b => a.SharesSkeleton b) (fun b x h => h.trans (hf b x)) xs (.refl a)

theorem view {β : Type} {view : Entity → β} (hview : ∀ e, view e.skeleton = view e)
    (h : a.SharesSkeleton b) : Agrees view a b := by
  have hagrees := h.agrees.map view
  rwa [funext hview] at hagrees

theorem ties (h : a.SharesSkeleton b) : Agrees Entity.ties a b :=
  h.view Entity.ties_skeleton

theorem addMember (a : Atlas) (owner : Option EntityId) (m : Member) :
    a.SharesSkeleton (a.addMember owner m).1 :=
  ⟨rfl, rfl, rfl⟩

theorem modifyMember (a : Atlas) (id : MemberId) (f : Member → Member) :
    a.SharesSkeleton (a.modifyMember id f) :=
  ⟨rfl, rfl, rfl⟩

theorem fileInClass (a : Atlas) (owner : EntityId) (id : MemberId) (p : Protection)
    (isListed : Bool) : a.SharesSkeleton (a.fileInClass owner id p isListed).value := by
  rcases a.fileInClass_cases owner id p isListed with heq | ⟨m, entry, -, -, -, heq⟩ <;> rw [heq]
  · exact .refl a
  · refine modifyEntity a owner fun e => ?_
    unfold Entity.holding
    rw [Entity.skeleton_modifyClass _ fun c => c.skeleton_noting m id _]
    split
    · exact e.skeleton_filed _ id
    · rfl

theorem insertMember {owner : EntityId} {id : MemberId} {filed : Noted Atlas}
    (h : a.insertMember owner id = .ok filed) : a.SharesSkeleton filed.value :=
  insertMember_kept (P := a.SharesSkeleton) h (fun p => fileInClass a owner id p true)
    (fileInNamespace_kept (fun b owner m hb => hb.trans (modifyEntity b owner fun e =>
      e.skeleton_posting m id)) owner (.refl a))

theorem copyMembers (a : Atlas) (instanceId generic : EntityId) (spec : String) :
    a.SharesSkeleton (a.copyMembers instanceId generic spec).value := by
  refine foldlM (fun b source => ?_) _ a
  unfold copyIntoInstance
  split
  · exact .refl b
  · exact (addMember b _ _).trans (fileInClass _ _ _ _ _)

/-! ## Inheritance -/

theorem mergeOne (a : Atlas) (id : EntityId) : a.SharesSkeleton (a.mergeOne id).value := by
  unfold Atlas.mergeOne
  split
  · exact .refl a
  · split
    · exact .refl a
    · have hmerged := modifyClass a id
        (f := fun c => { c with isMerged := true, roster := .empty }) fun c => rfl
      have hrostered (b : Atlas) (roster : Roster) :=
        modifyClass b id (f := fun c => { c with roster }) fun c => rfl
      refine (hmerged.trans (hrostered _ _)).trans (foldlM ?_ _ _)
      intro b entry
      exact fileInClass b id entry.1 entry.2 false

theorem mergeFrom (a : Atlas) (id : EntityId) : a.SharesSkeleton (a.mergeFrom id).value.1 :=
  foldlM mergeOne _ a

theorem mergeAll (a : Atlas) : a.SharesSkeleton a.mergeAll.value.1 := by
  refine Noted.foldlM_kept (P := fun state : Atlas × Nat => a.SharesSkeleton state.1) ?_ _ ?_
  · intro state id h
    exact h.trans (mergeFrom state.1 id)
  · exact .refl a

end SharesSkeleton

/-! ## Using relations -/

section Using

variable {β : Type} {view : Entity → β}

theorem agrees_modifyNamespace (hview : ∀ e f, view (e.modifyNamespace f) = view e) (a : Atlas)
    (id : EntityId) (f : NamespaceBody → NamespaceBody) : Agrees view a (a.modifyNamespace id f) :=
  .modifyEntity a id fun e => hview e f

theorem agrees_closeAllUsing (hview : ∀ e f, view (e.modifyNamespace f) = view e) (a : Atlas) :
    Agrees view a a.closeAllUsing :=
  closeAllUsing_kept (P := Agrees view a)
    (fun b id f hb => hb.trans (agrees_modifyNamespace hview b id f)) (.refl _ a)

end Using

end Atlas

end SymbolAtlas
