import SymbolAtlas.Proofs.Atlas.Growth
import SymbolAtlas.Proofs.Atlas.Sections

/-!
# Rules for rosters

A rule says which views may stand in the roster of a class, and whether the class may be merged. What
an operation adds to an atlas by itself keeps to every rule: own members of a class, copies in an
instance, and what a class takes over from a category. So an atlas that upholds a rule goes on to do
so. Tidy are atlases in which nothing is merged and classes list members as they declare them.
-/

set_option autoImplicit false

namespace SymbolAtlas

variable {f : ClassBody → ClassBody} (e : Entity)

/-- The owner of the member stands in the place of an entity. -/
def Member.IsOwnedBy (m : Member) (id : EntityId) : Prop :=
  m.owner.map (·.slot) = some id.slot

/-- What remains of an entity while it is described further. -/
def Entity.stamp (e : Entity) : EntityId × Option (Roster × Bool) :=
  (e.id, e.class?.map fun c => (c.roster, c.isMerged))

/-- The stamp with the sections. -/
def Entity.card (e : Entity) : (EntityId × Option (Roster × Bool)) × SectionTable :=
  (e.stamp, e.sections)

theorem Entity.stamp_modifyClass {g : Roster × Bool → Roster × Bool}
    (hf : ∀ c, ((f c).roster, (f c).isMerged) = g (c.roster, c.isMerged)) :
    (e.modifyClass f).stamp = (e.stamp.1, e.stamp.2.map g) := by
  unfold stamp
  rw [e.map_class?_modifyClass (v := fun c => (c.roster, c.isMerged)) hf]
  unfold modifyClass
  split <;> rfl

theorem Entity.stamp_modifyClass_eq
    (hf : ∀ c, ((f c).roster, (f c).isMerged) = (c.roster, c.isMerged)) :
    (e.modifyClass f).stamp = e.stamp := by
  rw [e.stamp_modifyClass (g := fun body => body) hf, Option.map_id']

theorem Entity.card_modifyClass (e : Entity)
    (hf : ∀ c, ((f c).roster, (f c).isMerged) = (c.roster, c.isMerged)) :
    (e.modifyClass f).card = e.card := by
  unfold card
  rw [e.stamp_modifyClass_eq hf, sections_modifyClass]

theorem Entity.stamp_modifyNamespace (f : NamespaceBody → NamespaceBody) :
    (e.modifyNamespace f).stamp = e.stamp := by
  unfold stamp
  rw [class?_modifyNamespace]
  unfold modifyNamespace
  split <;> rfl

theorem Entity.stamp_filed (placement : Placement) (id : MemberId) :
    (e.filed placement id).stamp = e.stamp := by
  unfold stamp
  rw [map_roster_filed]
  unfold filed
  dsimp only
  split
  · rfl
  · unfold modifyClass
    split <;> rfl

theorem Entity.stamp_declare (id : EntityId) (name : String) (kind : EntityKind)
    (location : Location) (isSimple hasSubGrouping : Bool) :
    (declare id name kind location isSimple hasSubGrouping).stamp =
      (id, if kind.isNamespaceLike then none else some (.empty, false)) := by
  unfold stamp declare class?
  cases kind.isNamespaceLike <;> rfl

/-- What rosters are held to, and which classes may be merged. Classes are told by their slots. -/
structure Rule where
  /-- The view of a member may stand under a name in the roster of a class. -/
  lists : Nat → String → Member → View → Prop
  /-- The class may be merged, or not; a namespace is neither. -/
  merges : Nat → Option Bool → Prop
  /-- Classes from this slot on may be added. -/
  bound : Nat
  lists_mirror : ∀ {slot name m m' v}, m.Mirrors m' → m'.owner = m.owner →
    lists slot name m v → lists slot name m' v
  lists_own : ∀ {slot m p}, m.flags.isHidden = false → 0 < m.id.number →
    m.owner.map (·.slot) = some slot → lists slot m.name m (View.direct m p)
  lists_copy : ∀ {slot slot' name m m' v} {id : MemberId}, m.Mirrors m' → 0 < id.number →
    m'.owner.map (·.slot) = some slot' → lists slot name m v →
    lists slot' name m' { v with member := id }
  merges_new : ∀ slot, bound ≤ slot → merges slot none ∧ merges slot (some false)

/-- Nothing is merged, and classes list members as they declare them. -/
def Rule.tidy : Rule where
  lists slot name m v := v.isInherited = false ∧ v.path = "" ∧ m.name = name ∧
    v.virtualness = m.virtualness ∧ m.owner.map (·.slot) = some slot
  merges _ isMerged := isMerged ≠ some true
  bound := 0
  lists_mirror hmirrors howner := by
    rintro ⟨hinherited, hpath, hname, hvirtualness, hslot⟩
    exact ⟨hinherited, hpath, hmirrors.name.trans hname, hvirtualness.trans hmirrors.virtualness.symm,
      howner ▸ hslot⟩
  lists_own _ _ howner := ⟨rfl, rfl, rfl, rfl, howner⟩
  lists_copy hmirrors _ howner := by
    rintro ⟨hinherited, hpath, hname, hvirtualness, -⟩
    exact ⟨hinherited, hpath, hmirrors.name.trans hname, hvirtualness.trans hmirrors.virtualness.symm,
      howner⟩
  merges_new _ _ := ⟨by simp, by simp⟩

namespace Atlas

variable {a b : Atlas} {rule : Rule}
variable {slot : Nat} {roster : Roster}

/-- The roster keeps to the rule. -/
def Lists (a : Atlas) (rule : Rule) (slot : Nat) (roster : Roster) : Prop :=
  ∀ name, ∀ v ∈ roster.under name, ∃ m, a.member? v.member = some m ∧ rule.lists slot name m v

/-- An entity that stands in its place and keeps to the rule. -/
structure Meets (a : Atlas) (rule : Rule) (slot : Nat) (stamp : EntityId × Option (Roster × Bool)) :
    Prop where
  id_eq : stamp.1 = .ofSlot slot
  merges : rule.merges slot (stamp.2.map (·.2))
  lists : ∀ body ∈ stamp.2, a.Lists rule slot body.1

/-- Members and entities stand in their places, and keep to the rule. -/
structure Upholds (a : Atlas) (rule : Rule) : Prop where
  bound : rule.bound ≤ a.entities.size
  members : a.MembersInPlace
  entities : ∀ id e, a.entity? id = some e → a.Meets rule id.slot e.stamp

/-- Views that could be listed in `a` can be listed in `b`. -/
def Carries (a : Atlas) (rule : Rule) (b : Atlas) : Prop :=
  ∀ id m, a.member? id = some m → ∃ m', b.member? id = some m' ∧
    ∀ slot name v, rule.lists slot name m v → rule.lists slot name m' v

/-! ## Rosters -/

theorem carries_of_eq (h : b.members = a.members) : a.Carries rule b :=
  fun id m hm => ⟨m, by rwa [member?, h], fun _ _ _ hv => hv⟩

theorem Relates.carries {touched : List Nat} (h : a.Relates touched b) : a.Carries rule b := by
  intro id m hm
  obtain ⟨category, relation, hm'⟩ := h.kept id m hm
  exact ⟨_, hm', fun _ _ _ => rule.lists_mirror ⟨rfl, rfl, rfl, rfl, rfl, rfl, rfl, rfl⟩ rfl⟩

theorem Lists.mono (h : a.Lists rule slot roster) (hcarries : a.Carries rule b) :
    b.Lists rule slot roster := by
  intro name v hv
  obtain ⟨m, hm, hlists⟩ := h name v hv
  obtain ⟨m', hm', hcarried⟩ := hcarries v.member m hm
  exact ⟨m', hm', hcarried slot name v hlists⟩

theorem Lists.slot_lt (h : a.Lists rule slot roster) (name : String) (views : List View)
    (hviews : roster.get? name = some views) : ∀ v ∈ views, v.member.slot < a.members.size := by
  intro v hv
  obtain ⟨m, hm, -⟩ := h name v (by rwa [Roster.under, hviews])
  exact slot_lt_of_member? hm

theorem lists_empty (a : Atlas) (rule : Rule) (slot : Nat) : a.Lists rule slot .empty := by
  intro name v hv
  simp [Roster.under] at hv

theorem Lists.append (h : a.Lists rule slot roster) {name : String} {v : View}
    (hv : ∃ m, a.member? v.member = some m ∧ rule.lists slot name m v) :
    a.Lists rule slot (roster.append name v) := by
  intro name' v' hv'
  unfold Roster.under at hv'
  rw [Dict.get?_append] at hv'
  split at hv'
  · next heq =>
    subst heq
    rcases List.mem_append.mp hv' with hv' | hv'
    · exact h name' v' hv'
    · rw [List.mem_singleton.mp hv']
      exact hv
  · exact h name' v' hv'

theorem Meets.mono {stamp : EntityId × Option (Roster × Bool)} (h : a.Meets rule slot stamp)
    (hcarries : a.Carries rule b) : b.Meets rule slot stamp :=
  ⟨h.id_eq, h.merges, fun body hbody => (h.lists body hbody).mono hcarries⟩

theorem Meets.map {stamp : EntityId × Option (Roster × Bool)} (h : a.Meets rule slot stamp)
    {g : Roster × Bool → Roster × Bool}
    (hg : ∀ body ∈ stamp.2, a.Lists rule slot body.1 → rule.merges slot (some body.2) →
      a.Lists rule slot (g body).1 ∧ rule.merges slot (some (g body).2)) :
    a.Meets rule slot (stamp.1, stamp.2.map g) := by
  obtain ⟨id, body⟩ := stamp
  obtain ⟨hid, hmerges, hlists⟩ := h
  cases body with
  | none => exact ⟨hid, hmerges, hlists⟩
  | some body =>
    obtain ⟨hlists', hmerges'⟩ := hg body rfl (hlists body rfl) hmerges
    exact ⟨hid, hmerges', fun body' hbody' => Option.some.inj hbody' ▸ hlists'⟩

theorem agrees_withCategory (a : Atlas) (id category : EntityId) (c : ClassBody) :
    Agrees Entity.card a (a.withCategory id category c) := by
  refine withCategory_kept (P := Agrees Entity.card a) (fun b id f hf hb => ?_) (fun b id hb => ?_)
    id category c (.refl _ a)
  · refine hb.trans (.modifyEntity b id fun e => e.card_modifyClass fun c => ?_)
    have hsame := congrArg (fun c : ClassBody => (c.roster, c.isMerged)) (hf c).unlinked
    exact hsame
  · exact hb.trans (.modifyEntity b id fun e => rfl)

theorem members_withCategory (a : Atlas) (id category : EntityId) (c : ClassBody) :
    (a.withCategory id category c).members = a.members :=
  withCategory_kept (P := fun b => b.members = a.members) (fun _ _ _ _ hb => hb)
    (fun _ _ hb => hb) id category c rfl

namespace Upholds

variable {id category : EntityId}

/-! ## Changing entities -/

section

variable (h : a.Upholds rule) (id : EntityId)

include h

theorem of_agrees (hmembers : b.members = a.members) (hagrees : Agrees Entity.stamp a b) :
    b.Upholds rule := by
  refine ⟨hagrees.size ▸ h.bound, ?_, fun id e he => ?_⟩
  · unfold MembersInPlace member?
    rw [hmembers]
    exact h.members
  · have hstamp := hagrees.entity?_eq id
    rw [he, Option.map_some, eq_comm, Option.map_eq_some_iff] at hstamp
    obtain ⟨e', he', hstamp⟩ := hstamp
    exact hstamp ▸ (h.entities id e' he').mono (carries_of_eq hmembers)

theorem modifyEntity {f : Entity → Entity}
    (hf : ∀ e, a.Meets rule id.slot e.stamp → a.Meets rule id.slot (f e).stamp) :
    (a.modifyEntity id f).Upholds rule := by
  refine ⟨by rw [size_modifyEntity]; exact h.bound, h.members, fun id' e he => ?_⟩
  rw [entity?_modifyEntity] at he
  split at he
  · next hslot =>
    obtain ⟨e', he', rfl⟩ := Option.map_eq_some_iff.mp he
    rw [← hslot]
    exact (hf e' (hslot ▸ h.entities id' e' he')).mono (carries_of_eq rfl)
  · exact (h.entities id' e he).mono (carries_of_eq rfl)

theorem modifyEntity_of_stamp {f : Entity → Entity} (hf : ∀ e, (f e).stamp = e.stamp) :
    (a.modifyEntity id f).Upholds rule :=
  h.modifyEntity id fun e he => (hf e).symm ▸ he

theorem modifyClass {f : ClassBody → ClassBody}
    (hf : ∀ c, ((f c).roster, (f c).isMerged) = (c.roster, c.isMerged)) :
    (a.modifyClass id f).Upholds rule :=
  h.modifyEntity_of_stamp id fun e => e.stamp_modifyClass_eq hf

theorem modifyNamespace (f : NamespaceBody → NamespaceBody) :
    (a.modifyNamespace id f).Upholds rule :=
  h.modifyEntity_of_stamp id fun e => e.stamp_modifyNamespace f

theorem modifyClass_roster (hroster : a.Lists rule id.slot roster) :
    (a.modifyClass id fun c => { c with roster }).Upholds rule := by
  refine h.modifyEntity id fun e he => ?_
  rw [e.stamp_modifyClass (g := fun body => (roster, body.2)) fun c => rfl]
  exact he.map fun body _ _ hmerges => ⟨hroster, hmerges⟩

end

theorem lists (h : a.Upholds rule) {c : ClassBody} (hc : a.class? id = some c) :
    a.Lists rule id.slot c.roster := by
  obtain ⟨e, he, hbody⟩ := (a.class?_eq_some_iff id c).mp hc
  exact (h.entities id e he).lists (c.roster, c.isMerged) (by rw [Entity.stamp, hbody]; rfl)

theorem lists_rosterOf (h : a.Upholds rule) (id : EntityId) :
    a.Lists rule id.slot (a.rosterOf id) := by
  unfold rosterOf roster?
  cases hclass : a.class? id with
  | none => exact lists_empty a rule id.slot
  | some c => exact h.lists hclass

/-! ## Adding entities and members -/

theorem empty (rule : Rule) (hbound : rule.bound = 0) (options : Options) :
    (Atlas.empty options).Upholds rule := by
  refine ⟨hbound ▸ Nat.zero_le _, fun id m hm => ?_, fun id e he => ?_⟩
  · simp [Atlas.empty, member?] at hm
  · simp [Atlas.empty, entity?] at he

theorem of_carries (h : a.Upholds rule) (hentities : b.entities = a.entities)
    (hplace : b.MembersInPlace) (hcarries : a.Carries rule b) : b.Upholds rule := by
  refine ⟨hentities ▸ h.bound, hplace, fun id e he => ?_⟩
  rw [entity?, hentities] at he
  exact (h.entities id e he).mono hcarries

theorem of_relates {touched : List Nat} (h : a.Upholds rule) (hrelates : a.Relates touched b) :
    b.Upholds rule :=
  h.of_carries hrelates.entities (hrelates.place h.members) hrelates.carries

section

variable (h : a.Upholds rule) (name : String) (kind : EntityKind) (location : Location)

include h

theorem allocate : (a.allocate name kind location).1.Upholds rule := by
  refine ⟨by rw [size_allocate]; exact Nat.le_succ_of_le h.bound, h.members, fun id e he => ?_⟩
  rw [entity?_allocate] at he
  split at he
  · next hslot =>
    cases he
    obtain ⟨hnone, hfalse⟩ := rule.merges_new id.slot (hslot ▸ h.bound)
    rw [Entity.stamp_declare, hslot]
    rw [hslot] at hnone hfalse
    cases kind.isNamespaceLike with
    | true => exact ⟨rfl, hnone, fun body hbody => nomatch hbody⟩
    | false =>
      exact ⟨rfl, hfalse, fun body hbody => Option.some.inj hbody ▸ lists_empty _ rule _⟩
  · exact (h.entities id e he).mono (carries_of_eq rfl)

theorem register : (a.register name kind location).1.Upholds rule := by
  unfold Atlas.register
  split
  · exact h
  · have hallocated := h.allocate name kind location
    exact hallocated.of_carries rfl hallocated.members (carries_of_eq rfl)

theorem addMember (owner : Option EntityId) (m : Member) : (a.addMember owner m).1.Upholds rule :=
  h.of_relates (.addMember a owner m)

end

/-! ## Filing -/

theorem fileInClass (h : a.Upholds rule) (owner : EntityId) (id : MemberId) (p : Protection)
    (isListed : Bool)
    (hlisted : isListed = true → ∀ m, a.member? id = some m → m.flags.isHidden = false →
      rule.lists owner.slot m.name m (View.direct m p)) :
    (a.fileInClass owner id p isListed).value.Upholds rule := by
  rcases a.fileInClass_cases owner id p isListed with heq | ⟨m, entry, hm, hhidden, hentry, heq⟩ <;>
    rw [heq]
  · exact h
  · have hlists : ∀ v ∈ entry,
        ∃ m', a.member? v.member = some m' ∧ rule.lists owner.slot m.name m' v := by
      intro v hv
      obtain ⟨hflag, rfl⟩ := hentry v hv
      refine ⟨m, ?_, hlisted hflag m hm hhidden⟩
      show a.member? m.id = some m
      rw [h.members id m hm]
      exact hm
    have hnoting (e : Entity) (he : a.Meets rule owner.slot e.stamp) :
        a.Meets rule owner.slot (e.modifyClass fun c => c.noting m id entry).stamp := by
      rw [e.stamp_modifyClass (g := fun body =>
        (entry.elim body.1 (body.1.append m.name ·), body.2)) fun c => ?_]
      · refine he.map fun body _ hbody hmerges => ⟨?_, hmerges⟩
        cases entry with
        | none => exact hbody
        | some v => exact hbody.append (hlists v rfl)
      · obtain ⟨hroster, hmerged⟩ := Prod.mk.inj (c.roster_noting_none m id)
        cases entry with
        | none => exact Prod.ext hroster hmerged
        | some v => exact Prod.ext (congrArg (Dict.append · m.name v) hroster) hmerged
    refine h.modifyEntity owner fun e he => hnoting _ ?_
    split
    · exact (e.stamp_filed _ id).symm ▸ he
    · exact he

theorem insertMember (h : a.Upholds rule) {owner : EntityId} {id : MemberId}
    (hlisted : ∀ m, a.member? id = some m → m.flags.isHidden = false →
      ∀ p, rule.lists owner.slot m.name m (View.direct m p))
    {filed : Noted Atlas} (hfiled : a.insertMember owner id = .ok filed) :
    filed.value.Upholds rule := by
  refine insertMember_kept (P := (Upholds · rule)) hfiled (fun p => ?_) ?_
  · exact h.fileInClass owner id p true fun _ m hm hhidden => hlisted m hm hhidden p
  · refine fileInNamespace_kept (P := (Upholds · rule)) (fun b owner m hb => ?_) owner h
    refine hb.modifyEntity_of_stamp owner fun e => ?_
    unfold Entity.posting
    split <;> exact e.stamp_modifyNamespace _

theorem lists_addMember (h : a.Upholds rule) (owner : EntityId) (m : Member) {m' : Member}
    (hm' : (a.addMember (some owner) m).1.member? (a.addMember (some owner) m).2 = some m')
    (hhidden : m'.flags.isHidden = false) (p : Protection) :
    rule.lists owner.slot m'.name m' (View.direct m' p) := by
  obtain ⟨added, hmembers, -, hnew, -, -, howner⟩ := a.addMember_eq (some owner) m
  have hplace := (h.addMember (some owner) m).members _ m' hm'
  rw [a.member?_push hmembers, hnew, MemberId.slot_ofSlot, if_pos rfl] at hm'
  cases hm'
  refine rule.lists_own hhidden (hplace ▸ Nat.succ_pos _) ?_
  rw [howner]
  rfl

/-! ## Scopes and bases -/

theorem setOuter (h : a.Upholds rule) (inner outer : EntityId) :
    (a.setOuter inner outer).Upholds rule :=
  h.of_agrees (a.frame_setOuter inner outer).2 (agrees_setOuter (fun _ _ _ _ => rfl) a inner outer)

theorem linkBase (h : a.Upholds rule) (child : EntityId) (edge : BaseEdge) :
    (a.linkBase child edge).value.Upholds rule := by
  refine linkBase_kept (P := (Upholds · rule)) (fun b id f hf hb => ?_) child edge h
  refine hb.modifyClass id fun c => ?_
  have hsame := congrArg (fun c : ClassBody => (c.roster, c.isMerged)) (hf c).unlinked
  exact hsame

theorem setFormals (h : a.Upholds rule) {formals : List String}
    (hb : a.setFormals id formals = .ok b) : b.Upholds rule := by
  obtain ⟨c, -, hb⟩ := Except.bind_eq_ok hb
  cases hb
  exact h.modifyClass id fun c => rfl

/-! ## Template instances -/

theorem copyMembers (h : a.Upholds rule) (instanceId generic : EntityId) (spec : String) :
    (a.copyMembers instanceId generic spec).value.Upholds rule := by
  refine Noted.foldlM_kept (P := fun b : Atlas => b.Upholds rule) (fun b source hb => ?_) _ h
  unfold copyIntoInstance
  split
  · exact hb
  · exact (hb.addMember _ _).fileInClass _ _ _ _ fun _ _ hm' hhidden =>
      hb.lists_addMember instanceId _ hm' hhidden _

theorem addInstance (h : a.Upholds rule) (generic : EntityId) (master : Entity) (key : String) :
    (a.addInstance generic master key).value.1.Upholds rule := by
  apply copyMembers
  apply Upholds.modifyClass
  · apply Upholds.modifyClass
    · apply modifyEntity_of_stamp
      · exact h.allocate _ _ _
      · intro e
        rfl
    · intro c
      rfl
  · intro c
    rfl

theorem instantiate (h : a.Upholds rule) {template : EntityId} {spec : String}
    {made : Noted (Atlas × EntityId × Bool)} (hmade : a.instantiate template spec = .ok made) :
    made.value.1.Upholds rule :=
  ((InstancesKeep.of_always (P := fun b => b.Upholds rule)
    (fun _ _ _ _ _ hb => hb.addInstance _ _ _) fun _ _ _ hb => hb.linkBase _ _).instantiate h
      trivial hmade).1.holds

/-! ## Categories -/

theorem lists_of_adopted {own : Roster} {slot : Nat} {result : Atlas × Roster × List View}
    (h : Adopted id category a own roster.toList result) (hown : a.Lists rule id.slot own)
    (hroster : a.Lists rule slot roster) : result.1.Lists rule id.slot result.2.1 := by
  obtain ⟨touched, hrelates⟩ := h.relates
  intro name w hw
  cases hname : own.get? name with
  | some views =>
    rw [Roster.under, h.present name views hname] at hw
    obtain ⟨m, hm, hlists⟩ := hown name w (by rwa [Roster.under, hname])
    obtain ⟨m', hm', hcarried⟩ := hrelates.carries w.member m hm
    exact ⟨m', hm', hcarried _ _ _ hlists⟩
  | none =>
    have hnew : name ∈ roster.toList.map (·.1) := by
      by_contra hnot
      rw [Roster.under, (h.named name).mpr ⟨hname, hnot⟩] at hw
      cases hw
    obtain ⟨⟨name', views⟩, hentry, rfl⟩ := List.mem_map.mp hnew
    obtain ⟨copies, hcopies, hcopied, -⟩ := h.copied name' views hentry hname
    rw [Roster.under, hcopies] at hw
    obtain ⟨v, hv, hcopy⟩ := exists_of_mem_forall₂ hcopied hw
    obtain ⟨m, m', hm, hm', hmirrors, howner, -⟩ := hcopy.record
    obtain ⟨m₀, hm₀, hlists⟩ := hroster name' v
      (by rwa [Roster.under, (roster.mem_toList_iff _ _).mp hentry])
    obtain rfl := Option.some.inj (hm.symm.trans hm₀)
    refine ⟨m', hm', ?_⟩
    rw [hcopy.view]
    exact rule.lists_copy hmirrors (Nat.zero_lt_of_lt hcopy.fresh) (by rw [howner]; rfl) hlists

/-- Taking over a category: it is left out, or the class shows nothing while its roster is put
together, and what it has taken over is filed last. -/
theorem mergeCategory_cases (h : a.Upholds rule) {merged : Noted Atlas}
    (hmerged : a.mergeCategory id category = .ok merged) :
    (∃ e, a.entity? category = some e ∧ (e.isLocal && !a.options.extractLocalMethods) = true ∧
      merged.value = a) ∨
    ∃ own c result, a.class? id = some own ∧ a.class? category = some c ∧
      Adopted id category ((a.withCategory id category c).modifyClass id fun c =>
        { c with roster := .empty }) (a.rosterOf id) c.roster.toList result ∧
      merged.value = (result.1.modifyClass id fun c => { c with roster := result.2.1 }).modifyEntity
        id fun e => (result.2.2.map fun v => (v.member, v.protection)).foldl
          (Entity.inlining (result.1.modifyClass id fun c => { c with roster := result.2.1 })) e := by
  obtain ⟨own, hown, hmerged⟩ := Except.bind_eq_ok hmerged
  obtain ⟨c, hc, hmerged⟩ := Except.bind_eq_ok hmerged
  obtain ⟨e, he, hmerged⟩ := Except.bind_eq_ok hmerged
  split at hmerged
  · next hlocal =>
    cases hmerged
    exact .inl ⟨e, entity?_of_requireEntity he, hlocal, rfl⟩
  · cases hmerged
    obtain ⟨target, htarget, hroster⟩ : ∃ target,
        (a.withCategory id category c).class? id = some target ∧ target.roster = own.roster := by
      obtain ⟨e', he', hbody⟩ := (a.class?_eq_some_iff id own).mp (class?_of_requireClass hown)
      have hcard := (a.agrees_withCategory id category c).entity?_eq id
      rw [he', Option.map_some, Option.map_eq_some_iff] at hcard
      obtain ⟨e'', he'', hcard⟩ := hcard
      have hclass : e''.card.1.2 = some (own.roster, own.isMerged) := by
        rw [hcard]
        exact congrArg (Option.map _) hbody
      obtain ⟨target, htarget, hbody'⟩ := Option.map_eq_some_iff.mp hclass
      exact ⟨target, (class?_eq_some_iff _ id target).mpr ⟨e'', he'', htarget⟩,
        congrArg Prod.fst hbody'⟩
    have hrosterOf : a.rosterOf id = target.roster := by
      rw [rosterOf, roster?, class?_of_requireClass hown, hroster]
      rfl
    have hmembers := a.members_withCategory id category c
    refine .inr ⟨own, c, _, class?_of_requireClass hown, class?_of_requireClass hc, ?_,
      value_adopt id category htarget⟩
    rw [hrosterOf]
    have hlisted := (h.lists (class?_of_requireClass hown)).mono (carries_of_eq hmembers)
    have hlisted' := (h.lists (class?_of_requireClass hc)).mono (carries_of_eq hmembers)
    rw [← hroster] at hlisted
    exact adopted_foldl id category (e.isLocal || c.traits.isExtension) hlisted.slot_lt
      hlisted'.slot_lt

theorem mergeCategory (h : a.Upholds rule) {merged : Noted Atlas}
    (hmerged : a.mergeCategory id category = .ok merged) : merged.value.Upholds rule := by
  rcases h.mergeCategory_cases hmerged with ⟨_, -, -, heq⟩ | ⟨_, c, result, -, hc, hadopted, heq⟩
  · rwa [heq]
  · have hmembers := a.members_withCategory id category c
    have hmarked := h.of_agrees hmembers ((a.agrees_withCategory id category c).map Prod.fst)
    obtain ⟨touched, hrelates⟩ := hadopted.relates
    have hlists := lists_of_adopted hadopted
      ((h.lists_rosterOf id).mono (carries_of_eq hmembers))
      ((h.lists hc).mono (carries_of_eq hmembers))
    rw [heq, ← foldl_fileInClass]
    refine foldl_kept (P := fun b : Atlas => b.Upholds rule) (fun b entry hb => ?_) _ ?_
    · exact hb.fileInClass _ _ _ _ fun hlisted => absurd hlisted Bool.false_ne_true
    · exact ((hmarked.modifyClass_roster id (lists_empty _ rule id.slot)).of_relates
        hrelates).modifyClass_roster id hlists

end Upholds

/-! ## Tidy atlases -/

/-- A view as the class that declares the member lists it. -/
structure IsOwnView (a : Atlas) (id : EntityId) (name : String) (v : View) : Prop where
  isInherited : v.isInherited = false
  path : v.path = ""
  member : ∃ m, a.member? v.member = some m ∧ m.name = name ∧ v.virtualness = m.virtualness ∧
    m.IsOwnedBy id

/-- A roster of views of a class's own members. -/
def ListsOwn (a : Atlas) (id : EntityId) (roster : Roster) : Prop :=
  ∀ name, ∀ v ∈ roster.under name, a.IsOwnView id name v

/-- The atlas upholds the rule for tidy atlases. -/
abbrev IsTidy (a : Atlas) : Prop :=
  a.Upholds .tidy

theorem listsOwn_empty (a : Atlas) (id : EntityId) : a.ListsOwn id .empty := by
  intro name v hv
  simp [Roster.under] at hv

theorem IsTidy.listsOwn (h : a.IsTidy) {id : EntityId} {c : ClassBody} (hc : a.class? id = some c) :
    a.ListsOwn id c.roster := by
  intro name v hv
  obtain ⟨m, hm, hinherited, hpath, hname, hvirtualness, howner⟩ := h.lists hc name v hv
  exact ⟨hinherited, hpath, m, hm, hname, hvirtualness, howner⟩

end Atlas

end SymbolAtlas
