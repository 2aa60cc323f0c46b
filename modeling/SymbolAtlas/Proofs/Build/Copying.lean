import SymbolAtlas.Proofs.Build.Accounting
import SymbolAtlas.Proofs.Signature.Copies

/-!
# Members of instances

Instances of templates get copies of the members of their templates, and an atlas gets no other
members when instances are made. So what is known of one copy is known of every member that was
added, those of instances among the bases included.
-/

set_option autoImplicit false

namespace SymbolAtlas

open Text

namespace Instantiation

variable {i : Instantiation} {source : MemberId} {m copy : Member}

/-- A copy of a member, with the parameters replaced in the text of its arguments and in their types.
If the signature of the original was read of its text, that of the copy matches what is read of the
text of the copy, just if replacing the parameters changes no array suffix. -/
structure Copies (i : Instantiation) (source : MemberId) (m copy : Member) : Prop where
  templateMaster : copy.templateMaster = some source
  argsText : copy.argsText = i.apply m.argsText
  signature : copy.signature =
    { m.signature with arguments := m.signature.arguments.map i.copyArgument }
  inStep : ∀ text, m.argsText = trimmed text → m.signature = Signature.read text →
    i.IsPlain → i.Suits m.argsText →
    (copy.signature.isCompatible (Signature.read copy.argsText) = true ↔
      ∀ a ∈ m.signature.arguments, normalized (i.apply a.arraySuffix) = a.arraySuffix)

theorem read_trimmed (text : String) : Signature.read (trimmed text) = Signature.read text := by
  rw [Signature.read_eq_ofText, Signature.read_eq_ofText, trimmed, String.toList_ofList]
  exact (Signature.ofText_alike (respaced_trim (fun _ => rfl) false false text.toList)).symm

end Instantiation

namespace Atlas

variable {a b c : Atlas}
variable {template : EntityId} {spec : String} {made : Noted (Atlas × EntityId)}

/-! ## The members of one instance -/

/-- Copies of some members are added for an instance, and no other members. -/
structure TakesCopies (i : Instantiation) (id : EntityId) (sources : List MemberId) (a b : Atlas) :
    Prop where
  kept : ∀ k m, a.member? k = some m → b.member? k = some m
  copied : ∀ k copy, a.member? k = none → b.member? k = some copy →
    ∃ source m, b.member? source = some m ∧ i.Copies source m copy
  made : ∀ source ∈ sources, ∀ m, a.member? source = some m →
    ∃ k copy, a.member? k = none ∧ b.member? k = some copy ∧ copy.owner = some id ∧
      i.Copies source m copy

section One

variable {i : Instantiation} {id : EntityId} {source : MemberId} {sources : List MemberId}

theorem takesCopies_copyIntoInstance (i : Instantiation) (id : EntityId) (a : Atlas)
    (source : MemberId) : TakesCopies i id [source] a (copyIntoInstance i id a source).value := by
  unfold copyIntoInstance
  split
  · next hnone =>
    refine ⟨fun _ _ h => h, fun k copy hk hcopy => ?_, fun source' hsource m hm => ?_⟩
    · exact absurd (hcopy.symm.trans hk) (Option.some_ne_none _)
    · rw [List.mem_singleton.mp hsource, hnone] at hm
      cases hm
  · next m hm =>
    obtain ⟨language, flags, -, heq⟩ := a.exists_addMember_eq (some id) (i.copyMember source m)
    have hmembers := (members_fileInClass (a.addMember (some id) (i.copyMember source m)).1 id
      (a.addMember (some id) (i.copyMember source m)).2 m.protection true)
    rw [heq] at hmembers ⊢
    have hmember := a.member?_push hmembers
    have hcopies : i.Copies source m { i.copyMember source m with
        id := .ofSlot a.members.size, owner := some id, language, flags } := by
      refine ⟨rfl, rfl, rfl, fun text htext hread hplain hsuits => ?_⟩
      exact Instantiation.isCompatible_copyMember_iff hplain
        (by rw [hread, htext, Instantiation.read_trimmed]) hsuits source
    have hkept (k : MemberId) (m' : Member) (hk : a.member? k = some m') :
        k.slot ≠ a.members.size := by
      intro hslot
      rw [member?, hslot, Array.getElem?_eq_none (Nat.le_refl _)] at hk
      cases hk
    refine ⟨fun k m' hk => ?_, fun k copy hk hcopy => ⟨source, m, ?_, ?_⟩, fun s hs m' hm' => ?_⟩
    · rw [hmember, if_neg (hkept k m' hk), hk]
    · rw [hmember, if_neg (hkept source m hm), hm]
    · rw [hmember] at hcopy
      split at hcopy
      · cases hcopy
        exact hcopies
      · exact absurd (hcopy.symm.trans hk) (Option.some_ne_none _)
    · obtain rfl := List.mem_singleton.mp hs
      obtain rfl := Option.some.inj (hm.symm.trans hm')
      have hslot : (MemberId.ofSlot a.members.size).slot = a.members.size := rfl
      refine ⟨.ofSlot a.members.size, _, ?_, by rw [hmember, if_pos hslot], rfl, hcopies⟩
      rw [member?, hslot, Array.getElem?_eq_none (Nat.le_refl _)]

theorem TakesCopies.nil (i : Instantiation) (id : EntityId) (a : Atlas) : TakesCopies i id [] a a :=
  ⟨fun _ _ h => h, fun _ _ hk hcopy => absurd (hcopy.symm.trans hk) (Option.some_ne_none _),
    fun _ hsource => absurd hsource List.not_mem_nil⟩

theorem TakesCopies.append {sources' : List MemberId} (h : TakesCopies i id sources a b)
    (h' : TakesCopies i id sources' b c) : TakesCopies i id (sources ++ sources') a c where
  kept k m hk := h'.kept k m (h.kept k m hk)
  copied k copy hk hcopy := by
    cases hb : b.member? k with
    | none => exact h'.copied k copy hb hcopy
    | some copy' =>
      obtain rfl := Option.some.inj ((h'.kept k copy' hb).symm.trans hcopy)
      obtain ⟨source, m, hm, hcopies⟩ := h.copied k copy' hk hb
      exact ⟨source, m, h'.kept source m hm, hcopies⟩
  made source hsource m hm := by
    rcases List.mem_append.mp hsource with hsource | hsource
    · obtain ⟨k, copy, hk, hcopy, hcopies⟩ := h.made source hsource m hm
      exact ⟨k, copy, hk, h'.kept k copy hcopy, hcopies⟩
    · obtain ⟨k, copy, hk, hcopy, hcopies⟩ := h'.made source hsource m (h.kept source m hm)
      refine ⟨k, copy, ?_, hcopy, hcopies⟩
      by_contra hne
      obtain ⟨m', hm'⟩ := Option.ne_none_iff_exists'.mp hne
      exact absurd ((h.kept k m' hm').symm.trans hk) (Option.some_ne_none _)

/-- Copying members one after the other takes a copy of each. -/
theorem takesCopies_foldl (i : Instantiation) (id : EntityId) (sources : List MemberId) (a : Atlas) :
    TakesCopies i id sources a (sources.foldlM (copyIntoInstance i id) a).value := by
  induction sources generalizing a with
  | nil => exact .nil i id a
  | cons source sources ih => exact (takesCopies_copyIntoInstance i id a source).append (ih _)

theorem takesCopies_copyMembers (a : Atlas) (id generic : EntityId) (key : String) :
    TakesCopies (a.instantiation generic key) id (a.ownMembers generic) a
      (a.copyMembers id generic key).value :=
  takesCopies_foldl _ id _ a

end One

/-! ## What instances leave as it is -/

section View

variable {β : Type} (view : ClassBody → β)

theorem map_class?_modifyEntity (a : Atlas) (id : EntityId) {f : Entity → Entity}
    (hf : ∀ e, (f e).class?.map view = e.class?.map view) (id' : EntityId) :
    ((a.modifyEntity id f).class? id').map view = (a.class? id').map view :=
  a.read_modifyEntity_eq id id' (r := fun x => (x.bind (·.class?)).map view) hf

theorem map_class?_modifyClass (a : Atlas) (id : EntityId) {f : ClassBody → ClassBody}
    (hf : ∀ c, view (f c) = view c) (id' : EntityId) :
    ((a.modifyClass id f).class? id').map view = (a.class? id').map view := by
  refine a.map_class?_modifyEntity view id (fun e => ?_) id'
  rw [e.map_class?_modifyClass (g := fun x => x) hf, Option.map_id']

theorem map_class?_withInstance
    (hview : ∀ c : ClassBody, ∀ instances, view { c with instances } = view c) (a : Atlas)
    {generic : EntityId} (master : Entity) (key : String) {id : EntityId}
    (hid : id.slot ≠ a.entities.size) :
    ((a.withInstance generic master key).class? id).map view = (a.class? id).map view := by
  have hnew : (EntityId.ofSlot a.entities.size).slot ≠ id.slot := hid.symm
  unfold withInstance
  rw [map_class?_modifyClass view _ _ (by intro c; exact hview c _)]
  unfold class? modifyClass
  rw [entity?_modifyEntity, if_neg hnew, entity?_modifyEntity, if_neg hnew, entity?_allocate,
    if_neg hid]

end View

theorem ownMembers_eq_of_roster {id : EntityId}
    (h : (b.class? id).map (·.roster) = (a.class? id).map (·.roster)) :
    b.ownMembers id = a.ownMembers id := by
  have hroster (a : Atlas) : a.ownMembers id = (((a.class? id).map (·.roster)).map fun roster =>
      (roster.views.filter fun v => !v.isInherited).map (·.member)).getD [] := by
    unfold ownMembers
    cases a.class? id <;> rfl
  rw [hroster, hroster, h]

/-- Members are added, all of them copies for instances; and the parameters of templates stay. -/
structure Copying (a b : Atlas) : Prop where
  instantiation : ∀ generic key, b.instantiation generic key = a.instantiation generic key
  kept : ∀ k m, a.member? k = some m → b.member? k = some m
  copied : ∀ k copy, a.member? k = none → b.member? k = some copy →
    ∃ generic key source m, b.member? source = some m ∧
      (b.instantiation generic key).Copies source m copy

namespace Copying

theorem of_members (hmembers : b.members = a.members)
    (h : ∀ generic key, b.instantiation generic key = a.instantiation generic key) :
    a.Copying b where
  instantiation := h
  kept k m hk := by
    rw [member?, hmembers]
    exact hk
  copied k copy hk hcopy := by
    rw [member?, hmembers] at hcopy
    exact absurd (hcopy.symm.trans hk) (Option.some_ne_none _)

theorem refl (a : Atlas) : a.Copying a :=
  of_members rfl fun _ _ => rfl

theorem trans (h : a.Copying b) (h' : b.Copying c) : a.Copying c where
  instantiation generic key := (h'.instantiation generic key).trans (h.instantiation generic key)
  kept k m hk := h'.kept k m (h.kept k m hk)
  copied k copy hk hcopy := by
    cases hb : b.member? k with
    | none => exact h'.copied k copy hb hcopy
    | some copy' =>
      obtain rfl := Option.some.inj ((h'.kept k copy' hb).symm.trans hcopy)
      obtain ⟨generic, key, source, m, hm, hcopies⟩ := h.copied k copy' hk hb
      exact ⟨generic, key, source, m, h'.kept source m hm, h'.instantiation generic key ▸ hcopies⟩

variable (a : Atlas) (id generic : EntityId)

theorem modifyClass {f : ClassBody → ClassBody} (hf : ∀ c, (f c).formals = c.formals) :
    a.Copying (a.modifyClass id f) := by
  refine of_members rfl fun generic key => ?_
  unfold Atlas.instantiation
  rw [map_class?_modifyClass (·.formals) a id hf]

theorem modifyEntity {f : Entity → Entity} (hf : ∀ e, (f e).class? = e.class?) :
    a.Copying (a.modifyEntity id f) := by
  refine of_members rfl fun generic key => ?_
  unfold Atlas.instantiation
  rw [map_class?_modifyEntity (·.formals) a id fun e => by rw [hf]]

theorem allocate (name : String) (kind : EntityKind) (location : Location) :
    a.Copying (a.allocate name kind location).1 := by
  refine of_members rfl fun generic key => ?_
  rw [Atlas.instantiation_eq, Atlas.instantiation_eq, lineage?_allocate]
  split
  · next hslot =>
    -- There was no class with that number, so it had no parameters either.
    have hnone : a.lineage? generic = none := by
      rw [lineage?, entity?, hslot, Array.getElem?_eq_none (Nat.le_refl _)]
      rfl
    rw [hnone]
    split <;> rfl
  · rfl

theorem linkBase (child : EntityId) (edge : BaseEdge) :
    a.Copying (a.linkBase child edge).value := by
  refine of_members (a.frame_linkBase child edge).2.2 fun generic key => ?_
  rw [Atlas.instantiation_eq, Atlas.instantiation_eq, lineage?_linkBase_eq_map, Option.map_map]
  rfl

theorem copyMembers (key : String) : a.Copying (a.copyMembers id generic key).value := by
  have htakes := a.takesCopies_copyMembers id generic key
  have hsame (generic' : EntityId) (key' : String) :
      (a.copyMembers id generic key).value.instantiation generic' key'
        = a.instantiation generic' key' := by
    rw [Atlas.instantiation_eq, Atlas.instantiation_eq,
      (SharesSkeleton.copyMembers a id generic key).ties.kin.lineage?_eq]
  refine ⟨hsame, htakes.kept, fun k copy hk hcopy => ?_⟩
  obtain ⟨source, m, hm, hcopies⟩ := htakes.copied k copy hk hcopy
  exact ⟨generic, key, source, m, hm, (hsame generic key).symm ▸ hcopies⟩

theorem withInstance (master : Entity) (key : String) :
    a.Copying (a.withInstance generic master key) := by
  refine .trans ?_ (modifyClass _ _ fun c => rfl)
  refine .trans ?_ (modifyClass _ _ fun c => rfl)
  refine .trans ?_ (modifyEntity _ _ fun e => rfl)
  exact allocate a _ _ _

theorem addInstance (master : Entity) (key : String) :
    a.Copying (a.addInstance generic master key).value.1 := by
  rw [addInstance_eq, Noted.value_bind, Noted.value_pure]
  dsimp only
  exact (withInstance a generic master key).trans (copyMembers _ _ _ _)

theorem instancesKeep : InstancesKeep (fun b => a.Copying b) fun _ _ => True :=
  .of_always (fun b generic master key _ hb => hb.trans (addInstance b generic master key))
    fun b child edge hb => hb.trans (linkBase b child edge)

end Copying

/-! ## Every instance -/

/-- Each member that a template declares has its copy in an instance. -/
def HasCopies (a b : Atlas) (template : EntityId) (spec : String) (id : EntityId) : Prop :=
  ∀ source ∈ a.ownMembers (a.genericOf template), ∀ m, a.member? source = some m →
    ∃ k copy, a.member? k = none ∧ b.member? k = some copy ∧ copy.owner = some id ∧
      (a.instantiation (a.genericOf template) (normalized spec)).Copies source m copy

theorem HasCopies.mono {id : EntityId} (h : a.HasCopies b template spec id) (hkept : b.Copying c) :
    a.HasCopies c template spec id := by
  intro source hsource m hm
  obtain ⟨k, copy, hk, hcopy, hcopies⟩ := h source hsource m hm
  exact ⟨k, copy, hk, hkept.kept k copy hcopy, hcopies⟩

theorem hasCopies_copyMembers (hcopying : a.Copying b) (hmembers : b.members = a.members)
    (hown : b.ownMembers (a.genericOf template) = a.ownMembers (a.genericOf template))
    (id : EntityId) :
    a.HasCopies (b.copyMembers id (a.genericOf template) (normalized spec)).value template spec id := by
  have htakes := b.takesCopies_copyMembers id (a.genericOf template) (normalized spec)
  have hmember (k : MemberId) : b.member? k = a.member? k := by rw [member?, hmembers, member?]
  rw [hcopying.instantiation, hown] at htakes
  intro source hsource m hm
  obtain ⟨k, copy, hk, hcopies⟩ := htakes.made source hsource m ((hmember source).trans hm)
  exact ⟨k, copy, (hmember k).symm.trans hk, hcopies⟩

theorem hasCopies_addInstance {template : EntityId} {master : Entity}
    (hmaster : a.entity? (a.genericOf template) = some master) (spec : String) :
    a.HasCopies (a.addInstance (a.genericOf template) master (normalized spec)).value.1 template spec
      (a.addInstance (a.genericOf template) master (normalized spec)).value.2 := by
  have hslot : (a.genericOf template).slot ≠ a.entities.size :=
    Nat.ne_of_lt (slot_lt_of_entity? hmaster)
  have hown : (a.withInstance (a.genericOf template) master (normalized spec)).ownMembers
      (a.genericOf template) = a.ownMembers (a.genericOf template) :=
    ownMembers_eq_of_roster
      (map_class?_withInstance (·.roster) (fun _ _ => rfl) a master (normalized spec) hslot)
  rw [addInstance_eq, Noted.value_bind, Noted.value_pure]
  dsimp only
  exact hasCopies_copyMembers (.withInstance a _ master _) rfl hown _

theorem hasCopies_instanceWith
    {finish : Atlas → (instanceId generic : EntityId) → String → Noted Atlas}
    (hfinish : ∀ (b : Atlas) id generic key, b.Copying (finish b id generic key).value) (a : Atlas)
    (template : EntityId) (spec : String)
    (hadded : (instanceWith finish a template spec).value.2.2 = true) :
    a.HasCopies (instanceWith finish a template spec).value.1 template spec
      (instanceWith finish a template spec).value.2.1 := by
  unfold instanceWith at hadded ⊢
  dsimp only at hadded ⊢
  split at hadded
  · cases hadded
  · cases hadded
  · next master hfree hmaster =>
    exact (hasCopies_addInstance hmaster spec).mono (hfinish _ _ _ _)

/-- An instance of a template is made: one that is listed with its template, or one for a variable. -/
inductive Makes (a : Atlas) (template : EntityId) (spec : String) : Atlas → EntityId → Prop where
  | listed {made : Noted (Atlas × EntityId × Bool)} (h : a.instantiate template spec = .ok made)
      (hadded : made.value.2.2 = true) : Makes a template spec made.value.1 made.value.2.1
  | forVariable {made : Noted (Atlas × EntityId)} (h : a.instantiateVariable template spec = .ok made)
      (hadded : made.value.1.entities.size ≠ a.entities.size) :
      Makes a template spec made.value.1 made.value.2

theorem copying_instantiate {made : Noted (Atlas × EntityId × Bool)}
    (h : a.instantiate template spec = .ok made) (hadded : made.value.2.2 = true) :
    a.Copying made.value.1 ∧ a.HasCopies made.value.1 template spec made.value.2.1 := by
  obtain ⟨_, -, h⟩ := Except.bind_eq_ok h
  cases h
  have hkeep := Copying.instancesKeep
  refine ⟨((hkeep a).instanceWithin _ (.refl a) trivial spec).1.holds, ?_⟩
  cases hlevels : instantiationLimit a.options with
  | zero =>
    rw [hlevels] at hadded
    exact hasCopies_instanceWith (fun b _ _ _ => .refl b) a template spec hadded
  | succ levels =>
    rw [hlevels] at hadded
    refine hasCopies_instanceWith (fun b id generic key => ?_) a template spec hadded
    exact ((hkeep b).instantiateBases (fun spec hc ht => (hkeep b).instanceWithin levels hc ht spec)
      (.refl b) trivial trivial generic key).holds

theorem Copying.placeVariable (a : Atlas) (master : Entity) (key : String) :
    a.Copying (a.placeVariable master key) := by
  refine .trans ?_ (modifyEntity _ _ fun e => rfl)
  exact allocate a _ _ _

theorem Copying.listVariable (a : Atlas) (id generic : EntityId) (key : String) :
    a.Copying (a.listVariable id generic key) := by
  refine .trans ?_ (modifyClass _ _ fun c => rfl)
  exact modifyClass a id fun c => rfl

theorem ownMembers_placeVariable (a : Atlas) (master : Entity) (key : String) {id : EntityId}
    (hid : id.slot ≠ a.entities.size) :
    (a.placeVariable master key).ownMembers id = a.ownMembers id := by
  have hnew : (EntityId.ofSlot a.entities.size).slot ≠ id.slot := hid.symm
  refine ownMembers_eq_of_roster ?_
  unfold placeVariable class?
  rw [entity?_modifyEntity, if_neg hnew, entity?_allocate, if_neg hid]

theorem copying_instantiateVariable (h : a.instantiateVariable template spec = .ok made)
    (hadded : made.value.1.entities.size ≠ a.entities.size) :
    a.Copying made.value.1 ∧ a.HasCopies made.value.1 template spec made.value.2 := by
  rcases instantiateVariable_cases h with heq | ⟨master, hmaster, -, heq⟩
  · exact absurd (by rw [heq]) hadded
  · have hslot : (a.genericOf template).slot ≠ a.entities.size :=
      Nat.ne_of_lt (slot_lt_of_entity? hmaster)
    have hplaced := Copying.placeVariable a master (normalized spec)
    have hcopies : a.HasCopies _ template spec (.ofSlot a.entities.size) :=
      hasCopies_copyMembers hplaced rfl
        (a.ownMembers_placeVariable master (normalized spec) hslot) (.ofSlot a.entities.size)
    rw [heq]
    exact ⟨(hplaced.trans (.copyMembers _ _ _ _)).trans (.listVariable _ _ _ _),
      hcopies.mono (.listVariable _ _ _ _)⟩

/-- Whenever an instance of a template is made, each member that the template declares is copied into
it, and nothing but copies is added, in this instance and in those among its bases. A copy whose
original was read of its text matches what is read of its own text if and only if the parameters that
are replaced change no array suffix: there they are replaced in the text only. -/
theorem copies_in_step {a b : Atlas} {template : EntityId} {spec : String} {id : EntityId}
    (h : a.Makes template spec b id) :
    a.HasCopies b template spec id ∧
      ∀ k copy, a.member? k = none → b.member? k = some copy →
        ∃ generic key source m, b.member? source = some m ∧
          (b.instantiation generic key).Copies source m copy := by
  have hmade : a.Copying b ∧ a.HasCopies b template spec id := by
    cases h with
    | listed h hadded => exact copying_instantiate h hadded
    | forVariable h hadded => exact copying_instantiateVariable h hadded
  exact ⟨hmade.2, hmade.1.copied⟩

/-- A template with one member. -/
def grid (formals : List String) (args : String) : Atlas :=
  Operation.performAll (.empty {})
    [.register "Grid" .classKind {}, .setFormals ⟨1⟩ formals,
      .addMember (some ⟨1⟩) (Member.withArgs { name := "fill", kind := .function } args),
      .insertMember ⟨1⟩ ⟨1⟩]

/-- Text and arguments of a copy match where a parameter stands in types and in a default value. -/
theorem copies_in_step_grid :
    let args := "(const T &a, Map<T> b = T(), int c[4])"
    let spec := "<Pair<V>, 3>"
    let a := grid ["class T", "int N"] args
    let i := a.instantiation (a.genericOf ⟨1⟩) (normalized spec)
    i.IsPlain ∧ i.Suits args ∧
      ∃ made, a.instantiate ⟨1⟩ spec = .ok made ∧ made.value.2.2 = true ∧
        ∃ k copy, made.value.1.member? k = some copy ∧ copy.owner = some made.value.2.1 ∧
          copy.argsText = "(const Pair<V> &a, Map<Pair<V>> b = Pair<V> (), int c[4])" ∧
          copy.signature.isCompatible (Signature.read copy.argsText) = true := by
  intro args spec a i
  have hplain : i.IsPlain := by decide +kernel
  have hsuits : i.Suits args := by decide +kernel
  obtain ⟨hclass, -⟩ := a.holdsClass_and_class? ⟨1⟩ (by decide) (by decide +kernel)
  have hmade := instantiate_eq hclass spec
  have hadded : (instanceWithin (instantiationLimit a.options) a ⟨1⟩ spec).value.2.2 = true := by
    decide +kernel
  obtain ⟨m, hm⟩ : ∃ m, a.member? ⟨1⟩ = some m :=
    Option.isSome_iff_exists.mp (by decide +kernel)
  have hrecord : m.argsText = trimmed args ∧ m.signature = Signature.read args := by
    have heq : (a.member? ⟨1⟩).map (fun m => (m.argsText, m.signature))
        = some (trimmed args, Signature.read args) := by decide +kernel
    rw [hm] at heq
    exact Prod.mk.inj (Option.some.inj heq)
  have hsource : ⟨1⟩ ∈ a.ownMembers (a.genericOf ⟨1⟩) := by decide +kernel
  obtain ⟨k, copy, -, hcopy, howner, hcopies⟩ :=
    (copies_in_step (.listed hmade hadded)).1 ⟨1⟩ hsource m hm
  have hargs : m.argsText = args := hrecord.1.trans (by decide +kernel)
  refine ⟨hplain, hsuits, _, hmade, hadded, k, copy, hcopy, howner, ?_, ?_⟩
  · rw [hcopies.argsText, hargs]
    decide +kernel
  · have hsuits' : i.Suits m.argsText := by
      rw [hargs]
      exact hsuits
    refine (hcopies.inStep args hrecord.1 hrecord.2 hplain hsuits').mpr ?_
    rw [hrecord.2]
    decide +kernel

/-- A parameter in an array suffix is replaced in the text of the copy only, though no argument is
named like a parameter. -/
theorem array_suffix_left_behind :
    let a := grid ["int N"] "(int a[N])"
    (∀ arg ∈ (Signature.read "(int a[N])").arguments,
        arg.name ∉ (a.instantiation ⟨1⟩ "<3>").formals.map (·.name)) ∧
      ∃ made, a.instantiate ⟨1⟩ "<3>" = .ok made ∧
        (made.value.1.member? ⟨2⟩).map (fun copy =>
            (copy.argsText, copy.signature.text,
              copy.signature.isCompatible (Signature.read copy.argsText)))
          = some ("(int a[3])", "(int a[N])", false) := by
  refine ⟨by decide +kernel, _, rfl, ?_⟩
  decide +kernel

end Atlas

end SymbolAtlas
