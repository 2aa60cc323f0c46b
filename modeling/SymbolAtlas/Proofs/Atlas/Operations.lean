import SymbolAtlas.Proofs.Atlas.Change

/-!
# Operations

What can be done to an atlas from outside, as data: an atlas is worked on by one operation after the
other, and an operation that fails leaves it as it is. Each operation comes down to elementary
changes, so that whatever these keep holds after any number of operations.
-/

set_option autoImplicit false

namespace SymbolAtlas

namespace Atlas

variable {a b c : Atlas} {isStrict : Bool}
variable {id template : EntityId} {made : Noted (Atlas × EntityId × Bool)} {spec : String}

/-! ## What leaves all profiles alone -/

theorem Changes.of_agrees (hoptions : b.options = a.options) (h : Agrees Entity.profile a b) :
    Changes isStrict a b := by
  refine .single (.keep ⟨hoptions, h.1, fun id => ?_⟩)
  rw [h.profile?_eq, Option.map_id']

theorem SharesSkeleton.changes (h : a.SharesSkeleton b) : Changes isStrict a b :=
  .of_agrees h.options h.profile

theorem Changes.foldl {α : Type} {f : Atlas → α → Atlas} (hf : ∀ a x, Changes isStrict a (f a x))
    (xs : List α) (a : Atlas) : Changes isStrict a (xs.foldl f a) :=
  foldl_kept (P := fun b => Changes isStrict a b) (fun b x h => h.trans (hf b x)) xs .refl

section

variable (a : Atlas) (id : EntityId)

theorem changes_modifyEntity {f : Entity → Entity} (hf : ∀ e, (f e).profile = e.profile) :
    Changes isStrict a (a.modifyEntity id f) :=
  .of_agrees rfl (.modifyEntity a id hf)

theorem changes_modifyClass {f : ClassBody → ClassBody} (hf : ∀ c, (f c).relations = c.relations) :
    Changes isStrict a (a.modifyClass id f) :=
  a.changes_modifyEntity id fun e => e.profile_modifyClass_of_eq hf

theorem changes_modifyNamespace (f : NamespaceBody → NamespaceBody) :
    Changes isStrict a (a.modifyNamespace id f) :=
  a.changes_modifyEntity id fun e => e.profile_modifyNamespace f

theorem changes_setOuter (inner outer : EntityId) : Changes isStrict a (a.setOuter inner outer) :=
  .of_agrees (a.frame_setOuter inner outer).1 (agrees_setOuter (fun _ _ _ _ => rfl) a inner outer)

end

theorem changes_setFormals {formals : List String} (h : a.setFormals id formals = .ok b) :
    Changes isStrict a b := by
  obtain ⟨c, -, h⟩ := Except.bind_eq_ok h
  cases h
  exact a.changes_modifyClass id fun c => rfl

theorem changes_useNamespace {target : EntityId} (h : a.useNamespace id target = .ok b) :
    Changes isStrict a b :=
  useNamespace_kept (P := Changes isStrict a)
    (fun b id f hb => hb.trans (b.changes_modifyNamespace id f)) h .refl

theorem changes_useDeclaration {name : String} {target : UsingTarget}
    (h : a.useDeclaration id name target = .ok b) : Changes isStrict a b :=
  useDeclaration_kept (P := Changes isStrict a)
    (fun b id f hb => hb.trans (b.changes_modifyNamespace id f)) h .refl

theorem changes_closeUsing (h : a.closeUsing id = .ok b) : Changes isStrict a b :=
  closeUsing_kept (P := Changes isStrict a)
    (fun b id f hb => hb.trans (b.changes_modifyNamespace id f)) h .refl

theorem changes_closeAllUsing (a : Atlas) : Changes isStrict a a.closeAllUsing :=
  closeAllUsing_kept (P := Changes isStrict a)
    (fun b id f hb => hb.trans (b.changes_modifyNamespace id f)) .refl

theorem changes_mergeMembers {merged : Noted Atlas} (h : a.mergeMembers id = .ok merged) :
    Changes isStrict a merged.value := by
  obtain ⟨c, -, h⟩ := Except.bind_eq_ok h
  cases h
  exact (SharesSkeleton.mergeFrom a id).changes

/-! ## Declaring and linking -/

theorem adds_allocate (a : Atlas) (name : String) (kind : EntityKind) (location : Location) :
    a.Adds (a.allocate name kind location).1
      { name, kind
        protection := .pub
        relations? := if kind.isNamespaceLike then none else some .empty } fun _ p => p where
  options := rfl
  size := a.size_allocate name kind location
  profile id := by rw [profile?_allocate, Option.map_id']

theorem changes_register (a : Atlas) (name : String) (kind : EntityKind) (location : Location) :
    Changes isStrict a (a.register name kind location).1 := by
  unfold register
  split
  · exact .refl
  · next hfind =>
    have hadds := a.adds_allocate name kind location
    exact .single (.declare name kind (.inr ⟨hfind, rfl⟩)
      ⟨hadds.options, hadds.size, hadds.profile⟩)

theorem changes_linkBase {child : EntityId} {edge : BaseEdge} (hchild : a.HoldsClass child)
    (hparent : a.HoldsClass edge.target) : Changes isStrict a (a.linkBase child edge).value := by
  by_cases h : edge.target = child
  · rw [a.linkBase_self h]
  · exact .single (.link child edge hchild hparent h
      ⟨(a.frame_linkBase child edge).1, (a.frame_linkBase child edge).2.1, a.profile?_linkBase h⟩)

theorem changes_insertBase {child : EntityId} {edge : BaseEdge} (hchild : 0 < child.number)
    (hparent : 0 < edge.target.number) {linked : Noted Atlas}
    (h : a.insertBase child edge = .ok linked) : Changes isStrict a linked.value := by
  obtain ⟨c, hc, h⟩ := Except.bind_eq_ok h
  obtain ⟨c', hc', h⟩ := Except.bind_eq_ok h
  cases h
  exact changes_linkBase (holdsClass_of_requireClass hchild hc) (holdsClass_of_requireClass hparent hc')

/-! ## Instances -/

theorem IsWired.isNamespaceLike_eq_false (ha : a.IsWired) (hid : a.HoldsClass id) {e : Entity}
    (he : a.entity? id = some e) : e.kind.isNamespaceLike = false := by
  have hprofile : a.profile? id = some e.profile := by rw [profile?, he]; rfl
  obtain ⟨-, r, hr⟩ := holdsClass_iff.mp hid
  have hkind : e.profile.relations?.isSome = !e.kind.isNamespaceLike :=
    ha.kinds id e.profile hprofile
  rw [← relations?_of_profile? hprofile, hr] at hkind
  simpa using hkind.symm

/-- Changes have led to an atlas and to a class in it. -/
structure LeadsTo (isStrict : Bool) (a b : Atlas) (id : EntityId) : Prop where
  changes : Changes isStrict a b
  holdsClass : b.HoldsClass id

theorem LeadsTo.trans (h : a.LeadsTo isStrict b id) (h' : Changes isStrict b c) :
    a.LeadsTo isStrict c id :=
  ⟨Relation.ReflTransGen.trans h.changes h', h'.holdsClass h.holdsClass⟩

theorem leadsTo_listing (ha : a.IsWired) {name : String} {kind : EntityKind} {location : Location}
    (hadded : Agrees Entity.profile (a.allocate name kind location).1 b)
    (hoptions : b.options = a.options) (hkind : kind.isNamespaceLike = false)
    (ht : a.HoldsClass template) {table : Cache} {key : String} {list : ClassBody → ClassBody}
    (hlist : ∀ c, (list c).relations = c.relations.listing table key (.ofSlot a.entities.size))
    (hkey : Text.normalized key = key) (hfree : ∀ r, a.relations? (a.genericOf template) = some r →
      (r.cache table).get? key = none) :
    a.LeadsTo isStrict ((b.modifyClass (.ofSlot a.entities.size) fun c =>
      { c with templateMaster := some (a.genericOf template) }).modifyClass
        (a.genericOf template) list) (.ofSlot a.entities.size) := by
  have hprofile := profile?_listing hadded hkind (ha.holdsClass_genericOf ht).holds.slot_lt hlist
  have hsize : ((b.modifyClass (.ofSlot a.entities.size) fun c =>
      { c with templateMaster := some (a.genericOf template) }).modifyClass
        (a.genericOf template) list).entities.size = a.entities.size + 1 := by
    unfold modifyClass
    rw [size_modifyEntity, size_modifyEntity, hadded.size, size_allocate]
  generalize hresult : (b.modifyClass _ _).modifyClass _ list = c at hprofile hsize
  have hadds : a.Adds c
      { name, kind
        protection := .pub
        relations? := some (.ofInstance (a.genericOf template)) } fun id p =>
      if (a.genericOf template).slot = id.slot then
        p.mapRelations (·.listing table key (.ofSlot a.entities.size))
      else p := ⟨by rw [← hresult]; exact hoptions, hsize, hprofile⟩
  refine ⟨.single ?_, hadds.holdsClass rfl⟩
  exact .spawn table template key name kind ht hkind hkey hfree (by rw [← hresult]; exact hadded.1)
    hadds

theorem leadsTo_addInstance (ha : a.IsWired) (ht : a.HoldsClass template) {master : Entity}
    (hmaster : a.entity? (a.genericOf template) = some master) {key : String}
    (hkey : Text.normalized key = key)
    (hfree : (a.class? (a.genericOf template)).bind (·.instances.get? key) = none) :
    a.LeadsTo isStrict (a.addInstance (a.genericOf template) master key).value.1
      (.ofSlot a.entities.size) := by
  have hspawned : a.LeadsTo isStrict (a.withInstance (a.genericOf template) master key)
      (.ofSlot a.entities.size) := by
    refine leadsTo_listing ha (.modifyEntity _ _ ?_) rfl
      (ha.isNamespaceLike_eq_false (ha.holdsClass_genericOf ht) hmaster) ht
      (fun c => c.relations_withInstance key _) hkey fun r hr => ?_
    · intro e
      rfl
    · obtain ⟨c, hc, rfl⟩ := Option.map_eq_some_iff.mp hr
      rw [hc] at hfree
      exact hfree
  rw [addInstance_eq, Noted.value_bind]
  exact hspawned.trans (SharesSkeleton.copyMembers _ _ _ _).changes

theorem instancesKeep_changes (isStrict : Bool) (ha : a.IsWired) :
    InstancesKeep (fun b => Changes isStrict a b) HoldsClass where
  isNew _ := trivial
  generic hb := (hb.isWired ha).holdsClass_genericOf
  listed := by
    intro b id c key id' hb hc hid'
    have hr : b.relations? id = some c.relations := by rw [relations?, hc]; rfl
    exact ((hb.isWired ha).relations _ _ hr).cache .instances _ id' hid'
  base hb := (hb.isWired ha).holdsClass_of_mem_bases
  add := by
    intro b template master key hb ht hmaster hkey hfree
    have hadded : b.LeadsTo isStrict _ _ :=
      leadsTo_addInstance (hb.isWired ha) ht hmaster hkey hfree
    exact ⟨⟨hb.trans hadded.changes, hadded.changes.holdsClass⟩, hadded.holdsClass⟩
  link := by
    intro b child edge hb hchild _ hparent
    have hlinked : Changes isStrict b _ := changes_linkBase hchild hparent
    exact ⟨hb.trans hlinked, hlinked.holdsClass⟩

theorem holdsClass_of_instantiate (hpos : 0 < template.number)
    (h : a.instantiate template spec = .ok made) : a.HoldsClass template := by
  obtain ⟨c, hc, -⟩ := Except.bind_eq_ok h
  exact holdsClass_of_requireClass hpos hc

theorem changes_instantiate (ha : a.IsWired) (hpos : 0 < template.number)
    (h : a.instantiate template spec = .ok made) :
    a.LeadsTo isStrict made.value.1 made.value.2.1 := by
  obtain ⟨hmade, hid⟩ :=
    (instancesKeep_changes isStrict ha).instantiate .refl (holdsClass_of_instantiate hpos h) h
  exact ⟨hmade.holds, hid⟩

theorem changes_instantiateVariable (ha : a.IsWired) (hpos : 0 < template.number)
    {made : Noted (Atlas × EntityId)} (h : a.instantiateVariable template spec = .ok made) :
    Changes isStrict a made.value.1 := by
  obtain ⟨_, hc, -⟩ := Except.bind_eq_ok h
  rcases instantiateVariable_cases h with heq | ⟨master, -, hfree, heq⟩ <;> rw [heq]
  have hplaced : Agrees Entity.profile _ (a.placeVariable master (Text.normalized spec)) :=
    .modifyEntity _ (.ofSlot a.entities.size) fun e => rfl
  have hcopied := SharesSkeleton.copyMembers (a.placeVariable master (Text.normalized spec))
    (.ofSlot a.entities.size) (a.genericOf template) (Text.normalized spec)
  have hspawned : a.LeadsTo isStrict _ _ :=
    leadsTo_listing ha (hplaced.trans hcopied.profile) hcopied.options rfl
      (holdsClass_of_requireClass hpos hc)
      (fun c => c.relations_withVariableInstance (Text.normalized spec) _)
      (Text.normalized_normalized spec) fun r hr => by
        obtain ⟨c, hc, rfl⟩ := Option.map_eq_some_iff.mp hr
        exact hfree c hc
  exact hspawned.changes

/-! ## Categories -/

theorem modifies_extend (a : Atlas) (category id : EntityId) :
    a.Modifies (a.modifyClass category fun c => { c with categoryOf := some id })
      fun id' => Profile.mapRelations (.extending category id id') := by
  refine ⟨rfl, rfl, fun id' => ?_⟩
  unfold Relations.extending
  rw [profile?_modifyClass _ _ _ (g := fun r => { r with categoryOf := some id }) (by intro c; rfl)]
  cases a.profile? id' with
  | none => simp
  | some p => by_cases hslot : category.slot = id'.slot <;> simp [hslot, Profile.mapRelations]

theorem modifies_donateBase (a : Atlas) (id extension : EntityId) (edge : BaseEdge) :
    a.Modifies ((a.modifyClass id fun c =>
        { c with bases := c.bases ++ [edge], isSimple := false }).retargetDerived edge.target
          extension id)
      fun id' => Profile.mapRelations (.donated id extension edge id') := by
  refine ⟨rfl, rfl, fun id' => ?_⟩
  unfold retargetDerived Relations.donated
  rw [profile?_modifyClass _ _ _ (g := fun r =>
      { r with derived := r.derived.map fun edge' =>
          if edge'.target = extension then { edge' with target := id } else edge' })
      (by intro c; rfl),
    profile?_modifyClass _ _ _ (g := fun r => { r with bases := r.bases ++ [edge] })
      (by intro c; rfl)]
  cases a.profile? id' with
  | none => simp
  | some p =>
    by_cases hchild : id.slot = id'.slot <;> by_cases hbase : edge.target.slot = id'.slot <;>
      simp [hchild, hbase, Profile.mapRelations, Function.comp_def]

theorem changes_donateBases (hid : a.HoldsClass id) (extension : EntityId) {bases : List BaseEdge}
    (hbases : ∀ edge ∈ bases, a.HoldsClass edge.target) :
    Changes false a (a.donateBases id extension bases) := by
  refine List.foldlRecOn _ _ .refl fun b hb edge hedge => ?_
  have hdonated : Change false b _ := .donate id extension edge rfl (hb.holdsClass hid)
    (hb.holdsClass (hbases edge hedge)) (b.modifies_donateBase id extension edge)
  exact hb.tail hdonated

theorem changes_mergeCategory (ha : a.IsWired) {category : EntityId} (hid : 0 < id.number)
    {merged : Noted Atlas} (h : a.mergeCategory id category = .ok merged) :
    Changes false a merged.value := by
  rcases mergeCategory_eq_or h with heq | ⟨_, c, isLocal, htarget, hc, heq⟩ <;> rw [heq]
  refine Relation.ReflTransGen.trans ?_ (SharesSkeleton.adopt a id category c isLocal).changes
  have hmarked : Changes false a
      (a.modifyClass category fun c => { c with categoryOf := some id }) :=
    .single (.extend category id rfl (holdsClass_of_requireClass hid htarget)
      (a.modifies_extend category id))
  unfold withCategory
  split
  · have hboth : Changes false a _ := hmarked.trans (changes_modifyEntity _ category
      (f := fun e => { e with flags.isArtificial := true }) fun e => rfl)
    have hr : a.relations? category = some c.relations := by
      rw [relations?, class?_of_requireClass hc]
      rfl
    exact hboth.trans (changes_donateBases
      (hboth.holdsClass (holdsClass_of_requireClass hid htarget)) category fun edge hedge =>
        hboth.holdsClass ((ha.relations category _ hr).bases edge hedge))
  · exact hmarked

end Atlas

/-! ## Operations as data -/

/-- A number that an atlas can give out. -/
abbrev Handle := { id : EntityId // 0 < id.number }

instance (n : Nat) : OfNat Handle (n + 1) := ⟨⟨⟨n + 1⟩, Nat.succ_pos n⟩⟩

/-- A change of one entity that leaves its name, its kind and its relations alone. -/
structure Amendment where
  apply : Entity → Entity
  keeps : ∀ e, { (apply e).profile with protection := e.protection } = e.profile

/-- What can be done to an atlas. -/
inductive Operation where
  | register (name : String) (kind : EntityKind) (location : Location)
  | amend (id : EntityId) (amendment : Amendment)
  | setOuter (inner outer : EntityId)
  | setFormals (id : EntityId) (formals : List String)
  | addMember (owner : Option EntityId) (m : Member)
  | amendMember (id : MemberId) (change : Member → Member)
  | insertMember (owner : EntityId) (id : MemberId)
  | insertBase (child parent : Handle) (edge : BaseEdge)
  | instantiate (template : Handle) (spec : String)
  | instantiateVariable (template : Handle) (spec : String)
  | mergeMembers (id : EntityId)
  | mergeAll
  | mergeCategory (id : Handle) (category : EntityId)
  | useNamespace (id target : EntityId)
  | useDeclaration (id : EntityId) (name : String) (target : UsingTarget)
  | closeUsing (id : EntityId)
  | closeAllUsing

namespace Operation

variable {a b : Atlas} {isStrict : Bool}

/-- The outcome of an operation; an atlas on which it fails stays as it is. -/
def outcome (a : Atlas) {α : Type} (result : Except Fault α) (atlas : α → Atlas) : Atlas :=
  match result with
  | .ok value => atlas value
  | .error _ => a

/-- The atlas after an operation. -/
def perform (a : Atlas) : Operation → Atlas
  | register name kind location => (a.register name kind location).1
  | amend id amendment => a.modifyEntity id amendment.apply
  | setOuter inner outer => a.setOuter inner outer
  | setFormals id formals => outcome a (a.setFormals id formals) fun b => b
  | addMember owner m => (a.addMember owner m).1
  | amendMember id change => a.modifyMember id change
  | insertMember owner id => outcome a (a.insertMember owner id) (·.value)
  | insertBase child parent edge =>
    outcome a (a.insertBase child.1 { edge with target := parent.1 }) (·.value)
  | instantiate template spec => outcome a (a.instantiate template.1 spec) (·.value.1)
  | instantiateVariable template spec =>
    outcome a (a.instantiateVariable template.1 spec) (·.value.1)
  | mergeMembers id => outcome a (a.mergeMembers id) (·.value)
  | mergeAll => a.mergeAll.value.1
  | mergeCategory id category => outcome a (a.mergeCategory id.1 category) (·.value)
  | useNamespace id target => outcome a (a.useNamespace id target) fun b => b
  | useDeclaration id name target => outcome a (a.useDeclaration id name target) fun b => b
  | closeUsing id => outcome a (a.closeUsing id) fun b => b
  | closeAllUsing => a.closeAllUsing

/-- The operation does not change the protection of a class that has bases, and takes no category
into a class. -/
def IsOrderly (a : Atlas) : Operation → Prop
  | amend id amendment =>
    a.bases id = [] ∨ ∀ e ∈ a.entity? id, (amendment.apply e).protection = e.protection
  | mergeCategory _ _ => False
  | _ => True

/-- The atlas after some operations. -/
def performAll (a : Atlas) (operations : List Operation) : Atlas :=
  operations.foldl perform a

/-- Each operation is orderly in the atlas that it is performed on. -/
def AreOrderly (a : Atlas) : List Operation → Prop
  | [] => True
  | operation :: rest => operation.IsOrderly a ∧ AreOrderly (operation.perform a) rest

theorem outcome_kept {P : Atlas → Prop} {α : Type} {result : Except Fault α} {atlas : α → Atlas}
    (ha : P a) (h : ∀ value, result = .ok value → P (atlas value)) : P (outcome a result atlas) := by
  unfold outcome
  split
  · exact h _ rfl
  · exact ha

theorem changes_amend (a : Atlas) (id : EntityId) (amendment : Amendment)
    (h : isStrict = true → (amend id amendment).IsOrderly a) :
    Atlas.Changes isStrict a (a.modifyEntity id amendment.apply) := by
  cases he : a.entity? id with
  | none =>
    rw [a.modifyEntity_eq_self id (by simp [he])]
  | some e =>
    have hprofile : (amendment.apply e).profile =
        { e.profile with protection := (amendment.apply e).protection } := by
      rw [← amendment.keeps e]
      rfl
    have hmodified : a.Modifies (a.modifyEntity id amendment.apply) fun id' p =>
        if id.slot = id'.slot then { p with protection := (amendment.apply e).protection } else p := by
      refine ⟨rfl, rfl, fun id' => ?_⟩
      unfold Atlas.profile?
      rw [Atlas.entity?_modifyEntity]
      split
      · next hslot =>
        rw [← a.entity?_eq_of_slot hslot, he, Option.map_some, Option.map_some, hprofile]
        rfl
      · rw [Option.map_id']
    by_cases hkept : (amendment.apply e).protection = e.protection
    · refine .single (.keep ⟨rfl, rfl, fun id' => ?_⟩)
      rw [hmodified.profile, hkept]
      split
      · next hslot =>
        rw [Atlas.profile?, ← a.entity?_eq_of_slot hslot, he]
        rfl
      · rfl
    · refine .single (.protect id (amendment.apply e).protection (fun hstrict => ?_) hmodified)
      rcases h hstrict with hbases | hsame
      · exact hbases
      · exact absurd (hsame e he) hkept

/-- Every operation is a sequence of elementary changes. -/
theorem changes_perform (operation : Operation) (ha : a.IsWired)
    (h : isStrict = true → operation.IsOrderly a) :
    Atlas.Changes isStrict a (operation.perform a) := by
  cases operation with
  | register name kind location => exact a.changes_register name kind location
  | amend id amendment => exact changes_amend a id amendment h
  | setOuter inner outer => exact a.changes_setOuter inner outer
  | setFormals id formals => exact outcome_kept .refl fun b hb => Atlas.changes_setFormals hb
  | addMember owner m => exact (Atlas.SharesSkeleton.addMember a owner m).changes
  | amendMember id change => exact (Atlas.SharesSkeleton.modifyMember a id change).changes
  | insertMember owner id =>
    exact outcome_kept .refl fun filed hfiled => (Atlas.SharesSkeleton.insertMember hfiled).changes
  | insertBase child parent edge =>
    exact outcome_kept .refl fun linked hlinked =>
      Atlas.changes_insertBase child.2 parent.2 hlinked
  | instantiate template spec =>
    exact outcome_kept .refl fun made hmade =>
      (Atlas.changes_instantiate ha template.2 hmade).changes
  | instantiateVariable template spec =>
    exact outcome_kept .refl fun made hmade => Atlas.changes_instantiateVariable ha template.2 hmade
  | mergeMembers id => exact outcome_kept .refl fun merged hmerged => Atlas.changes_mergeMembers hmerged
  | mergeAll => exact (Atlas.SharesSkeleton.mergeAll a).changes
  | mergeCategory id category =>
    cases isStrict with
    | true => exact (h rfl).elim
    | false =>
      exact outcome_kept .refl fun merged hmerged => Atlas.changes_mergeCategory ha id.2 hmerged
  | useNamespace id target => exact outcome_kept .refl fun b hb => Atlas.changes_useNamespace hb
  | useDeclaration id name target =>
    exact outcome_kept .refl fun b hb => Atlas.changes_useDeclaration hb
  | closeUsing id => exact outcome_kept .refl fun b hb => Atlas.changes_closeUsing hb
  | closeAllUsing => exact a.changes_closeAllUsing

theorem changes_performAll (operations : List Operation) (ha : a.IsWired)
    (h : isStrict = true → AreOrderly a operations) :
    Atlas.Changes isStrict a (performAll a operations) := by
  induction operations generalizing a with
  | nil => exact .refl
  | cons operation rest ih =>
    have hfirst : Atlas.Changes isStrict a (operation.perform a) :=
      operation.changes_perform ha fun hstrict => (h hstrict).1
    exact hfirst.trans (ih (hfirst.isWired ha) fun hstrict => (h hstrict).2)

end Operation

end SymbolAtlas
