import Mathlib.Data.List.Dedup
import Mathlib.Data.List.TakeWhile
import SymbolAtlas.Proofs.Build.Cleaning
import SymbolAtlas.Proofs.Build.Instances
import SymbolAtlas.Proofs.Build.Placeholders

/-!
# Where entities and members come from

Every entity of a build is declared, or is a scope around one, or stands for a base that nobody
declares, or is an instance of a template; and each of these is counted where it is added. Until bases
are linked there are no instances, and from then on nothing else is added. Members are declared or
copied from those of templates, unless a category brings its own.
-/

set_option autoImplicit false

namespace SymbolAtlas

/-! ## Lists -/

theorem Noted.measure_foldlM {α β γ : Type} {μ : β → Nat} {f : β → α → Noted β} {g : α → List γ}
    (hf : ∀ b x, μ (f b x).value = μ b + (g x).length) (xs : List α) (b : β) :
    μ (xs.foldlM f b).value = μ b + (xs.flatMap g).length := by
  rw [value_foldlM]
  induction xs generalizing b with
  | nil => rfl
  | cons x xs ih =>
    rw [List.foldl_cons, ih, hf, List.flatMap_cons, List.length_append, Nat.add_assoc]

namespace QualifiedName

theorem pairwise_enclosingFrom (cs : List Char) :
    (enclosingFrom cs).Pairwise (fun s t => t.length < s.length) ∧
      ∀ s ∈ enclosingFrom cs, s.length < cs.length := by
  fun_induction enclosingFrom cs with
  | case1 cs h => exact ⟨.nil, by simp⟩
  | case2 cs scope name h hlength ih =>
    refine ⟨List.pairwise_cons.mpr ⟨ih.2, ih.1⟩, fun s hs => ?_⟩
    rcases List.mem_cons.mp hs with rfl | hs
    · omega
    · have := ih.2 s hs
      omega

theorem nodup_enclosing (name : String) : (enclosing name).Nodup := by
  have hne : (enclosingFrom name.toList).Nodup :=
    (pairwise_enclosingFrom name.toList).1.imp fun h heq => by
      rw [heq] at h
      exact Nat.lt_irrefl _ h
  exact hne.map fun s t h => by simpa using congrArg String.toList h

end QualifiedName

namespace Atlas

variable {a b c : Atlas}

/-! ## Originals and copies -/

/-- The number is that of an entity, and not of an instance of a template. -/
def isOriginal (a : Atlas) (id : EntityId) : Bool :=
  (a.entity? id).any fun e => !e.isTemplateInstance

/-- The number is that of a member, and not of the copy of one for an instance. -/
def isOriginalMember (a : Atlas) (id : MemberId) : Bool :=
  (a.member? id).any (·.templateMaster.isNone)

/-- How many entities are not instances of templates. -/
def originals (a : Atlas) : Nat :=
  a.entities.toList.countP fun e => !e.isTemplateInstance

/-- How many members are not copies for instances. -/
def originalMembers (a : Atlas) : Nat :=
  a.members.toList.countP (·.templateMaster.isNone)

theorem originals_congr (h : ∀ id, b.isOriginal id = a.isOriginal id) :
    b.originals = a.originals := by
  refine countP_eq_of_getElem? fun slot => ?_
  have hslot := h (.ofSlot slot)
  unfold isOriginal entity? at hslot
  rwa [← Array.getElem?_toList, ← Array.getElem?_toList] at hslot

theorem originalMembers_congr (h : ∀ id, b.isOriginalMember id = a.isOriginalMember id) :
    b.originalMembers = a.originalMembers := by
  refine countP_eq_of_getElem? fun slot => ?_
  have hslot := h (.ofSlot slot)
  unfold isOriginalMember member? at hslot
  rwa [← Array.getElem?_toList, ← Array.getElem?_toList] at hslot

theorem originals_add_instances (a : Atlas) :
    a.originals + a.entities.toList.countP (·.isTemplateInstance) = a.entities.size := by
  rw [← Array.length_toList, Nat.add_comm]
  have hsplit := a.entities.toList.length_eq_countP_add_countP (·.isTemplateInstance)
  rw [hsplit, originals]
  congr 2
  funext e
  cases e.isTemplateInstance <;> rfl

theorem Agrees.isOriginal_eq (h : Agrees Entity.isTemplateInstance a b) (id : EntityId) :
    b.isOriginal id = a.isOriginal id :=
  read_of_map_eq h.2 (f := Option.any fun e => !e.isTemplateInstance)
    (fun _ _ hsame => congrArg (!·) hsame) id

theorem isOriginal_eq_lineage? (a : Atlas) (id : EntityId) :
    a.isOriginal id =
      ((a.standing? id).isSome && !(a.lineage? id).any (·.templateMaster.isSome)) := by
  unfold isOriginal standing? lineage? Entity.isTemplateInstance Entity.templateMaster
    Entity.lineage?
  cases a.entity? id with
  | none => rfl
  | some e => cases hc : e.class? <;> simp [hc, ClassBody.lineage]

end Atlas

namespace Entity

theorem isTemplateInstance_skeleton (e : Entity) :
    e.skeleton.isTemplateInstance = e.isTemplateInstance := by
  unfold skeleton isTemplateInstance templateMaster class?
  cases e.body <;> rfl

theorem isTemplateInstance_modifyNamespace (e : Entity) (f : NamespaceBody → NamespaceBody) :
    (e.modifyNamespace f).isTemplateInstance = e.isTemplateInstance := by
  rw [isTemplateInstance, templateMaster, class?_modifyNamespace]
  rfl

theorem isTemplateInstance_modifyClass (e : Entity) {f : ClassBody → ClassBody}
    (hf : ∀ c : ClassBody, c.Relinks (f c)) :
    (e.modifyClass f).isTemplateInstance = e.isTemplateInstance := by
  unfold isTemplateInstance templateMaster
  rw [class?_modifyClass, Option.bind_map]
  congr 2
  funext c
  have hsame := congrArg ClassBody.templateMaster (hf c).unlinked
  exact hsame

end Entity

namespace Atlas

variable {a b c : Atlas}

theorem keptByLinks_isOriginal (a : Atlas) :
    KeptByLinks fun b => ∀ id, b.isOriginal id = a.isOriginal id := fun b id _ hf hb id' =>
  ((Agrees.modifyEntity b id fun e => e.isTemplateInstance_modifyClass hf).isOriginal_eq id').trans
    (hb id')

/-! ## Members -/

theorem members_fileInClass (a : Atlas) (owner : EntityId) (id : MemberId) (p : Protection)
    (isListed : Bool) : (a.fileInClass owner id p isListed).value.members = a.members := by
  rcases a.fileInClass_cases owner id p isListed with heq | ⟨_, _, -, -, -, heq⟩
  · rw [heq]
  · rw [heq]
    rfl

theorem members_insertMember {owner : EntityId} {id : MemberId} {filed : Noted Atlas}
    (h : a.insertMember owner id = .ok filed) : filed.value.members = a.members :=
  insertMember_kept (P := fun b => b.members = a.members) h
    (fun p => a.members_fileInClass owner id p true)
    (fileInNamespace_kept (P := fun b => b.members = a.members) (fun _ _ _ hb => hb) owner rfl)

theorem members_mergeAll (a : Atlas) : a.mergeAll.value.1.members = a.members := by
  rw [value_mergeAll]
  exact foldl_mergeFrom_induction
    (fun b id hb => (resembles_mergeFrom b id).members.trans hb) _ rfl

theorem members_closeAllUsing (a : Atlas) : a.closeAllUsing.members = a.members :=
  closeAllUsing_kept (P := fun b => b.members = a.members) (fun _ _ _ hb => hb) rfl

theorem isOriginalMember_of_members (h : b.members = a.members) (id : MemberId) :
    b.isOriginalMember id = a.isOriginalMember id := by
  rw [isOriginalMember, member?, h]
  rfl

theorem originalMembers_addMember (a : Atlas) (owner : Option EntityId) (m : Member) :
    (a.addMember owner m).1.originalMembers =
      a.originalMembers + if m.templateMaster.isNone then 1 else 0 := by
  obtain ⟨language, flags, -, heq⟩ := a.exists_addMember_eq owner m
  rw [heq, originalMembers, Array.toList_push, List.countP_append, List.countP_singleton]
  rfl

theorem isOriginalMember_copyIntoInstance (i : Instantiation) (instanceId : EntityId) (a : Atlas)
    (source : MemberId) (id : MemberId) :
    (copyIntoInstance i instanceId a source).value.isOriginalMember id = a.isOriginalMember id := by
  unfold copyIntoInstance
  split
  · rfl
  · next m _ =>
    rw [isOriginalMember_of_members (members_fileInClass _ _ _ _ _)]
    obtain ⟨language, flags, -, heq⟩ := a.exists_addMember_eq (some instanceId) (i.copyMember source m)
    rw [heq]
    unfold isOriginalMember
    rw [a.member?_push rfl]
    split
    · next hid =>
      have hnone : a.member? id = none := Array.getElem?_eq_none (Nat.le_of_eq hid.symm)
      rw [hnone]
      rfl
    · rfl

/-! ## Instances -/

/-- Nothing has been added but instances of templates, with copies of members. -/
structure AddsCopies (a b : Atlas) : Prop where
  entities : ∀ id, b.isOriginal id = a.isOriginal id
  members : ∀ id, b.isOriginalMember id = a.isOriginalMember id

namespace AddsCopies

theorem refl (a : Atlas) : a.AddsCopies a :=
  ⟨fun _ => rfl, fun _ => rfl⟩

theorem trans (h : a.AddsCopies b) (h' : b.AddsCopies c) : a.AddsCopies c :=
  ⟨fun id => (h'.entities id).trans (h.entities id), fun id => (h'.members id).trans (h.members id)⟩

theorem linkBase (a : Atlas) (child : EntityId) (edge : BaseEdge) :
    a.AddsCopies (a.linkBase child edge).value :=
  ⟨linkBase_kept a.keptByLinks_isOriginal child edge fun _ => rfl,
    isOriginalMember_of_members (a.frame_linkBase child edge).2.2⟩

theorem addInstance (ha : a.IsWired) {generic : EntityId} (hgeneric : a.HoldsClass generic)
    {master : Entity} (hmaster : a.entity? generic = some master) (key : String) :
    a.AddsCopies (a.addInstance generic master key).value.1 := by
  have hkind := ha.isNamespaceLike_eq_false hgeneric hmaster
  obtain ⟨l, hl⟩ : ∃ l, a.lineage? generic = some l := by
    obtain ⟨-, e, he, hclass⟩ := hgeneric
    rw [← Option.isSome_iff_exists, ← any_isClass_eq, he]
    exact hclass
  have hsize : (a.addInstance generic master key).value.1.entities.size = a.entities.size + 1 :=
    (a.agrees_addInstance generic master key).size.trans (a.size_withInstance generic master key)
  refine ⟨fun id => ?_, fun id => ?_⟩
  · have hlineage := lineage?_addInstance key hl hkind id
    have hthere := standing?_isSome_iff (a.addInstance generic master key).value.1 id
    rw [isOriginal_eq_lineage?, isOriginal_eq_lineage?, hlineage]
    have hthere' := a.standing?_isSome_iff id
    by_cases hid : id.slot = a.entities.size
    · have hnone : (a.standing? id).isSome = false := by
        rw [Bool.eq_false_iff, Ne, hthere']
        omega
      rw [if_pos hid, hnone]
      simp
    · have hsame : ((a.addInstance generic master key).value.1.standing? id).isSome =
          (a.standing? id).isSome := by
        rw [Bool.eq_iff_iff, hthere, hthere']
        omega
      rw [if_neg hid, hsame]
      split
      · next hslot => rw [← a.lineage?_eq_of_slot hslot, hl]; rfl
      · rfl
  · rw [addInstance_eq, Noted.value_bind]
    exact Noted.foldlM_kept (P := fun b : Atlas => b.isOriginalMember id = a.isOriginalMember id)
      (fun b source hb => (isOriginalMember_copyIntoInstance _ _ b source id).trans hb) _ rfl

theorem instantiate (ha : a.IsWired) {template : EntityId} (ht : a.HoldsClass template)
    {spec : String} {made : Noted (Atlas × EntityId × Bool)}
    (h : a.instantiate template spec = .ok made) : a.AddsCopies made.value.1 := by
  have hkeep := (instancesKeep_changes true ha).and (R := fun b => a.AddsCopies b)
    (fun key hb ht hmaster hcopies => hcopies.trans
      (addInstance (hb.isWired ha) ((hb.isWired ha).holdsClass_genericOf ht) hmaster key))
    fun child edge hcopies => hcopies.trans (linkBase _ child edge)
  exact (hkeep.instantiate ⟨.refl, .refl a⟩ ht h).1.holds.2

end AddsCopies

/-! ## Categories -/

theorem isOriginal_mergeCategory {id category : EntityId} {merged : Noted Atlas}
    (h : a.mergeCategory id category = .ok merged) (id' : EntityId) :
    merged.value.isOriginal id' = a.isOriginal id' := by
  refine mergeCategory_kept a.keptByLinks_isOriginal (fun b id hb id' => ?_)
    (fun hshares hb id' => ?_) h (fun _ => rfl) id'
  · refine (Agrees.isOriginal_eq (.modifyEntity b id ?_) id').trans (hb id')
    intro e
    rfl
  · exact ((hshares.view Entity.isTemplateInstance_skeleton).isOriginal_eq id').trans (hb id')

end Atlas

namespace Build

open Atlas

variable {progress : Progress} (options : Options) (d : Document)

/-! ## Registering -/

section

variable (a : Atlas) (name : String) (kind : EntityKind) (location : Location)

theorem find?_register (name' : String) :
    (a.register name kind location).1.find? name' =
      if name' = name then some (a.register name kind location).2 else a.find? name' := by
  unfold Atlas.register
  split
  · next id hfind =>
    split
    · next heq => rw [heq, hfind]
    · rfl
  · unfold find?
    rw [Dict.get?_insert]
    rfl

theorem size_register :
    (a.register name kind location).1.entities.size =
      if (a.find? name).isSome then a.entities.size else a.entities.size + 1 := by
  unfold Atlas.register
  cases a.find? name with
  | some id => rfl
  | none => exact a.size_allocate name kind location

theorem declareFormals_eq (id : EntityId) (decl : EntityDecl) :
    (declareFormals a id decl).value.names = a.names ∧
      (declareFormals a id decl).value.entities.size = a.entities.size ∧
      (declareFormals a id decl).value.members = a.members := by
  refine declareFormals_kept (P := fun b => b.names = a.names ∧
    b.entities.size = a.entities.size ∧ b.members = a.members) (fun hset => ?_) ⟨rfl, rfl, rfl⟩
  obtain ⟨c, -, hset⟩ := Except.bind_eq_ok hset
  cases hset
  exact ⟨rfl, a.size_modifyEntity id _, rfl⟩

theorem registerAs_eq (decl : EntityDecl) (kind : EntityKind) (p : Protection) :
    let registered := (a.register decl.name kind decl.location).1
    (registerAs a decl kind p).value.1.names = registered.names ∧
      (registerAs a decl kind p).value.1.entities.size = registered.entities.size ∧
      (registerAs a decl kind p).value.1.members = a.members := by
  intro registered
  have hmembers : registered.members = a.members := by
    unfold registered Atlas.register
    cases a.find? decl.name <;> rfl
  let id := (a.register decl.name kind decl.location).2
  let described := (registered.modifyEntity id (describe decl p)).modifyClass id fun c =>
    { c with traits := c.traits.addAll (traitsOf decl kind).value }
  obtain ⟨hnames, hsize, hsame⟩ := declareFormals_eq described id decl
  refine ⟨hnames, hsize.trans ?_, hsame.trans hmembers⟩
  unfold described modifyClass
  rw [size_modifyEntity, size_modifyEntity]

end

/-- What is known while entities are registered: there is one for each name, and nothing else. -/
structure IsRegistry (state : Progress × List Declared) : Prop where
  size : state.1.atlas.entities.size = (state.2.map (·.2.name)).dedup.length
  found : ∀ name, (state.1.atlas.find? name).isSome = true ↔ name ∈ state.2.map (·.2.name)
  members : state.1.atlas.members = #[]
  artificialScopes : state.1.summary.artificialScopes = 0
  skippedMembers : state.1.summary.skippedMembers = 0

theorem length_dedup_concat (names : List String) (name : String) :
    (names ++ [name]).dedup.length =
      if name ∈ names then names.dedup.length else names.dedup.length + 1 := by
  rw [((List.perm_append_singleton name names).dedup).length_eq]
  split
  · next hmem => rw [List.dedup_cons_of_mem hmem]
  · next hmem => rw [List.dedup_cons_of_notMem hmem, List.length_cons]

theorem IsRegistry.registerOne {state : Progress × List Declared} (h : IsRegistry state)
    (decl : EntityDecl) : IsRegistry (Build.registerOne state decl).value := by
  refine registerOne_kept (fun kind p _ _ => ?_)
    ⟨h.size, h.found, h.members, h.artificialScopes, h.skippedMembers⟩
  obtain ⟨hnames, hsize, hmembers⟩ := registerAs_eq state.1.atlas decl kind p
  refine ⟨?_, fun name => ?_, hmembers.trans h.members, h.artificialScopes, h.skippedMembers⟩
  · rw [hsize, size_register, List.map_append, List.map_singleton, length_dedup_concat, h.size]
    simp only [h.found]
  · rw [find?, hnames, ← find?, find?_register, List.map_append, List.mem_append, ← h.found]
    split
    · next heq => simp [heq]
    · next hne => simp [hne]

theorem isRegistry_registerAll : IsRegistry (registerAll { atlas := .empty options } d).value :=
  Noted.foldlM_kept (P := IsRegistry) (fun _ decl hstate => hstate.registerOne decl) _
    ⟨rfl, fun name => by simp [Atlas.empty, find?], rfl, rfl, rfl⟩

/-- Exactly the declarations that are understood are registered. -/
theorem declared_registerAll (progress : Progress) (d : Document) :
    (registerAll progress d).value.2.map (·.2) = d.entities.filter (·.isUnderstood) := by
  have hloop (decls : List EntityDecl) (state : Progress × List Declared) :
      (decls.foldl (fun state decl => (registerOne state decl).value) state).2.map (·.2) =
        state.2.map (·.2) ++ decls.filter (·.isUnderstood) := by
    induction decls generalizing state with
    | nil => rw [List.filter_nil, List.append_nil, List.foldl_nil]
    | cons decl rest ih =>
      rw [List.foldl_cons, ih]
      cases hdecl : decl.isUnderstood with
      | false =>
        rw [registerOne_of_not_isUnderstood hdecl, List.filter_cons_of_neg (by simp [hdecl])]
      | true =>
        obtain ⟨kind, p, hkind, hp⟩ := (isUnderstood_iff decl).mp hdecl
        rw [registerOne_of_words hkind hp, List.filter_cons_of_pos hdecl]
        simp
  unfold registerAll
  rw [Noted.value_foldlM]
  exact hloop d.entities (progress, [])

/-! ## Scopes -/

/-- Scopes have been added from `p` to `q`, and each of them is counted. -/
structure Progress.AddsScopes (p q : Progress) : Prop where
  size : q.atlas.entities.size + p.summary.artificialScopes =
    p.atlas.entities.size + q.summary.artificialScopes
  members : q.atlas.members = p.atlas.members
  skippedMembers : q.summary.skippedMembers = p.summary.skippedMembers

namespace Progress.AddsScopes

variable {p q r : Progress}

theorem refl (p : Progress) : p.AddsScopes p :=
  ⟨rfl, rfl, rfl⟩

theorem trans (h : p.AddsScopes q) (h' : q.AddsScopes r) : p.AddsScopes r := by
  have hsize := h.size
  have hsize' := h'.size
  exact ⟨by omega, h'.members.trans h.members, h'.skippedMembers.trans h.skippedMembers⟩

end Progress.AddsScopes

theorem addsScopes_addScope {scope : String} (h : progress.atlas.find? scope = none) :
    progress.AddsScopes (addScope progress scope) := by
  have hsize := size_register progress.atlas scope .namespaceKind {}
  rw [h, Option.isSome_none, if_neg Bool.false_ne_true] at hsize
  unfold addScope
  refine ⟨?_, ?_, rfl⟩
  · dsimp only
    rw [size_modifyEntity]
    omega
  · unfold Atlas.register
    rw [h]
    rfl

theorem addsScopes_foldl {scopes : List String} (hnodup : scopes.Nodup)
    (h : ∀ scope ∈ scopes, progress.atlas.find? scope = none) :
    progress.AddsScopes (scopes.foldl addScope progress) := by
  induction scopes generalizing progress with
  | nil => exact .refl progress
  | cons scope rest ih =>
    obtain ⟨hscope, hrest⟩ := List.nodup_cons.mp hnodup
    refine (addsScopes_addScope (h scope List.mem_cons_self)).trans (ih hrest fun other hother => ?_)
    have hne : other ≠ scope := fun heq => hscope (heq ▸ hother)
    have hfind := find?_register progress.atlas scope .namespaceKind {} other
    rw [if_neg hne] at hfind
    exact hfind.trans (h other (List.mem_cons_of_mem _ hother))

theorem addsScopes_addScopesOf (progress : Progress) (name : String) :
    progress.AddsScopes (addScopesOf progress name) := by
  refine addsScopes_foldl ?_ fun scope hscope => ?_
  · exact (List.takeWhile_sublist _).nodup (QualifiedName.nodup_enclosing name)
  · have hmissing := List.mem_takeWhile_imp hscope
    exact Option.isNone_iff_eq_none.mp hmissing

theorem addsScopes_addScopes (progress : Progress) : progress.AddsScopes (addScopes progress) :=
  foldl_kept (P := fun q => progress.AddsScopes q)
    (fun q name hq => hq.trans (addsScopes_addScopesOf q name)) _ (.refl progress)

theorem linkScopes_eq (progress : Progress) :
    (linkScopes progress).atlas.entities.size = progress.atlas.entities.size ∧
      (linkScopes progress).atlas.members = progress.atlas.members := by
  refine foldl_kept (P := fun a : Atlas => a.entities.size = progress.atlas.entities.size ∧
    a.members = progress.atlas.members) (fun a pair ha => ?_) _ ⟨rfl, rfl⟩
  exact ⟨(size_setOuter a pair.1 pair.2).trans ha.1, (a.frame_setOuter pair.1 pair.2).2.trans ha.2⟩

/-! ## Members -/

/-- The originals among the members, and those that were passed over. -/
def Progress.memberRecords (p : Progress) : Nat :=
  p.atlas.originalMembers + p.summary.skippedMembers

theorem memberRecords_addMember (owner : Declared) (progress : Progress) (decl : MemberDecl) :
    (addMember owner progress decl).value.memberRecords = progress.memberRecords + 1 := by
  refine addMember_kept (P := fun q => q.memberRecords = progress.memberRecords + 1)
    (fun m hm => ?_) rfl
  have hadded := progress.atlas.originalMembers_addMember (some owner.1) m
  rw [(refersToNone_memberOf hm).1, Option.isNone_none] at hadded
  have hrecords {b : Atlas}
      (hb : b.members = (progress.atlas.addMember (some owner.1) m).1.members) :
      Progress.memberRecords { progress with atlas := b } = progress.memberRecords + 1 := by
    rw [Progress.memberRecords, originalMembers_congr (isOriginalMember_of_members hb), hadded]
    exact Nat.add_right_comm _ _ _
  exact ⟨hrecords rfl, fun _ hfiled => hrecords (members_insertMember hfiled)⟩

section

variable (progress : Progress) (declared : List Declared)

theorem artificialScopes_addMembers :
    (addMembers progress declared).value.summary.artificialScopes =
      progress.summary.artificialScopes := by
  refine addMembers_kept
    (P := fun q => q.summary.artificialScopes = progress.summary.artificialScopes)
    (fun owner q decl hq => ?_) declared rfl
  exact addMember_kept
    (P := fun q => q.summary.artificialScopes = progress.summary.artificialScopes)
    (fun _ _ => ⟨hq, fun _ _ => hq⟩) hq

theorem size_addMembers :
    (addMembers progress declared).value.atlas.entities.size = progress.atlas.entities.size :=
  (sharesSkeleton_addMembers progress declared).ties.size

theorem memberRecords_addMembers :
    (addMembers progress declared).value.memberRecords =
      progress.memberRecords + (declared.flatMap (·.2.members)).length := by
  refine Noted.measure_foldlM (μ := Progress.memberRecords) (fun p owner => ?_) declared progress
  rw [Noted.measure_foldlM (μ := Progress.memberRecords) (g := fun decl => [decl])
    (memberRecords_addMember owner), List.flatMap_singleton']

end

/-! ## Bases -/

namespace Progress

/-- How many scopes have been added and how many members passed over. -/
def tally (p : Progress) : Nat × Nat :=
  (p.summary.artificialScopes, p.summary.skippedMembers)

/-- What looking up bases leaves alone. -/
def memberStock (p : Progress) : (Nat × Nat) × Array Member :=
  (p.tally, p.atlas.members)

/-- What instances leave alone, and what categories have in members. -/
def originalStock (p : Progress) : (Nat × Nat) × (EntityId → Bool) :=
  (p.tally, p.atlas.isOriginal)

end Progress

section

variable (progress : Progress) (child : EntityId) (edge : BaseEdge)

theorem tally_addEdge : (addEdge progress child edge).value.tally = progress.tally := by
  unfold addEdge
  split <;> rfl

theorem addsCopies_addEdge :
    progress.atlas.AddsCopies (addEdge progress child edge).value.atlas := by
  unfold addEdge
  split
  · exact .refl _
  · exact .linkBase progress.atlas child edge

theorem memberStock_foldlM (declared : List Declared) :
    (declared.foldlM addBasesOf (progress, [])).value.1.memberStock = progress.memberStock := by
  have hkeep : LinksKeep (fun q => q.memberStock = progress.memberStock) fun _ _ => True := by
    refine .of_always (fun q name hq => ?_) fun q child edge hq => ?_
    · obtain ⟨name', names', -, heq⟩ := addPlaceholder_eq q.atlas name
      rw [heq]
      exact hq
    · rw [← hq]
      exact Prod.ext rfl (q.atlas.frame_linkBase child edge).2.2
  exact (hkeep.foldlM rfl fun _ _ _ _ _ _ => trivial).carries.holds

end

theorem IsLinking.originals_eq {admits : EntityKind → Prop} {a₀ : Atlas}
    {pending : List PendingInstance} (h : IsLinking a₀ progress pending)
    (h₀ : a₀.IsUnlinked admits) : progress.atlas.originals = progress.atlas.entities.size := by
  refine List.countP_eq_length.mpr fun e he => ?_
  obtain ⟨slot, hslot⟩ := List.mem_iff_getElem?.mp he
  have hentity : progress.atlas.entity? (.ofSlot slot) = some e := by
    rw [entity?, EntityId.slot_ofSlot, ← Array.getElem?_toList, hslot]
  have hread := progress.atlas.isOriginal_eq_lineage? (.ofSlot slot)
  rw [isOriginal, hentity, Option.any_some, standing?, hentity] at hread
  rw [hread]
  cases hl : progress.atlas.lineage? (.ofSlot slot) with
  | none => rfl
  | some l =>
    rw [Option.any_some, (h.isStubbed.lineage_alone h₀ hl).1]
    rfl

/-! ## Instances and the rest -/

theorem originalStock_addPending (h : progress.atlas.IsWired) {p : PendingInstance}
    (htarget : progress.atlas.HoldsClass p.edge.target) :
    (addPending progress p).value.originalStock = progress.originalStock ∧
      ∀ id, (addPending progress p).value.atlas.isOriginalMember id =
        progress.atlas.isOriginalMember id := by
  unfold addPending
  split
  · exact ⟨rfl, fun _ => rfl⟩
  · next made hmade =>
    have hcopies := AddsCopies.instantiate h htarget hmade
    have htally := tally_addEdge { progress with atlas := made.value.1 } p.child
      { p.edge with target := made.value.2.1 }
    have hlinked := hcopies.trans (addsCopies_addEdge { progress with atlas := made.value.1 } p.child
      { p.edge with target := made.value.2.1 })
    exact ⟨Prod.ext htally (funext hlinked.entities), hlinked.members⟩

theorem standing?_addEdge (progress : Progress) (child : EntityId) (edge : BaseEdge)
    (id : EntityId) :
    (addEdge progress child edge).value.atlas.standing? id = progress.atlas.standing? id := by
  unfold addEdge
  split
  · rfl
  · exact progress.atlas.standing?_linkBase child edge id

theorem kinds_addPending {P : EntityKind → Prop}
    (h : ∀ id s, progress.atlas.standing? id = some s → P s.kind) (p : PendingInstance)
    (id : EntityId) (s : Standing) (hs : (addPending progress p).value.atlas.standing? id = some s) :
    P s.kind := by
  unfold addPending at hs
  split at hs
  · exact h id s hs
  · next made hmade =>
    rw [Noted.value_bind, standing?_addEdge] at hs
    exact (Spawns.instantiate hmade).kinds h hs

section

variable (progress : Progress) (owner : Declared)

theorem originalStock_mergeCategoryOf :
    (mergeCategoryOf progress owner).value.originalStock = progress.originalStock :=
  mergeCategoryOf_kept (P := fun q => q.originalStock = progress.originalStock)
    (fun _ _ hmerged => Prod.ext rfl (funext (isOriginal_mergeCategory hmerged))) rfl

theorem memberStock_addUsings :
    (addUsings progress owner).value.memberStock = progress.memberStock :=
  addUsings_kept (P := fun q => q.memberStock = progress.memberStock) (fun _ hq => hq)
    (fun _ _ _ hq => hq) owner rfl

theorem originalStock_addUsings :
    (addUsings progress owner).value.originalStock = progress.originalStock := by
  have htally := congrArg Prod.fst (memberStock_addUsings progress owner)
  have hviews := (keepsView_addUsings Entity.isTemplateInstance_modifyNamespace progress owner).1
  exact Prod.ext htally (funext hviews.isOriginal_eq)

theorem members_finish : (finish progress).value.1.members = progress.atlas.members :=
  (members_closeAllUsing _).trans progress.atlas.members_mergeAll

end

/-! ## The whole build -/

/-- Before bases are looked up, there is an entity for each name that is declared and for each scope
that is counted, and a member for each record that is not passed over. -/
theorem prepare_eq : let prepared := (prepare (.empty options) d).value.1
    let accepted := d.entities.filter (·.isUnderstood)
    prepared.atlas.entities.size =
        (accepted.map (·.name)).dedup.length + prepared.summary.artificialScopes ∧
      prepared.memberRecords = (accepted.flatMap (·.members)).length := by
  intro prepared accepted
  have hregistry := isRegistry_registerAll options d
  have hdeclared : (registerAll { atlas := .empty options } d).value.2.map (·.2) = accepted :=
    declared_registerAll { atlas := .empty options } d
  have hprepared : prepared = (addMembers (linkScopes (addScopes
      (registerAll { atlas := .empty options } d).value.1))
      (registerAll { atlas := .empty options } d).value.2).value := rfl
  generalize (registerAll { atlas := .empty options } d).value = registered
    at hregistry hdeclared hprepared
  have hnames : registered.2.map (·.2.name) = accepted.map (·.name) := by
    rw [← hdeclared, List.map_map]
    rfl
  have hrecords : registered.2.flatMap (·.2.members) = accepted.flatMap (·.members) := by
    rw [← hdeclared, List.flatMap_map]
  have hscopes := addsScopes_addScopes registered.1
  obtain ⟨hsize, hmembers⟩ := linkScopes_eq (addScopes registered.1)
  rw [hprepared]
  constructor
  · have hcounted := hscopes.size
    rw [hregistry.artificialScopes, hregistry.size, hnames] at hcounted
    rw [size_addMembers, artificialScopes_addMembers, hsize]
    exact hcounted
  · have hnone : (linkScopes (addScopes registered.1)).memberRecords = 0 := by
      have hempty : (linkScopes (addScopes registered.1)).atlas.members = #[] :=
        (hmembers.trans hscopes.members).trans hregistry.members
      have hskipped : (linkScopes (addScopes registered.1)).summary.skippedMembers = 0 :=
        hscopes.skippedMembers.trans hregistry.skippedMembers
      rw [Progress.memberRecords, originalMembers, hempty, hskipped]
      rfl
    rw [memberRecords_addMembers, hnone, hrecords, Nat.zero_add]

/-- From the lookup of bases on, nothing is added but instances, with copies of members, and members
of categories. -/
theorem originalStock_assemble : let prepared := (prepare (.empty options) d).value
    let linked := (prepared.2.foldlM addBasesOf (prepared.1, [])).value.1
    let assembled := (assemble (.empty options) d).value
    assembled.originalStock = linked.originalStock ∧
      ((∀ id s, linked.atlas.standing? id = some s → s.kind ≠ .category) →
        assembled.atlas.originalMembers = linked.atlas.originalMembers) := by
  intro prepared linked assembled
  obtain ⟨hchanges, hdeclared⟩ := isRegistering_prepare options d
  have hwired : prepared.1.atlas.IsWired := hchanges.isWired (.empty options)
  have hassembled : assembled = (prepared.2.foldlM addUsings
      (prepared.2.foldlM mergeCategoryOf (addBases prepared.1 prepared.2).value).value).value := by
    rfl
  have hheld : AreDeclared prepared.1.atlas prepared.2 := fun owner h => (hdeclared owner h).1
  rw [hassembled]
  constructor
  · refine Noted.foldlM_kept (P := fun q : Progress => q.originalStock = linked.originalStock)
      (fun q owner hq => (originalStock_addUsings q owner).trans hq) _ ?_
    refine Noted.foldlM_kept (P := fun q : Progress => q.originalStock = linked.originalStock)
      (fun q owner hq => (originalStock_mergeCategoryOf q owner).trans hq) _ ?_
    exact (addBases_kept_of_isWired (P := fun q => q.originalStock = linked.originalStock) hwired
      hheld rfl fun q p hq _ htarget h => (originalStock_addPending hq htarget).1.trans h).2
  · intro hkinds
    obtain ⟨-, hmembers, hkinds⟩ := addBases_kept_of_isWired (P := fun q : Progress =>
        (∀ id, q.atlas.isOriginalMember id = linked.atlas.isOriginalMember id) ∧
          ∀ id s, q.atlas.standing? id = some s → s.kind ≠ .category)
      hwired hheld ⟨fun _ => rfl, hkinds⟩ fun q p hq _ htarget h =>
        ⟨fun id => ((originalStock_addPending hq htarget).2 id).trans (h.1 id),
          kinds_addPending (P := (· ≠ .category)) h.2 p⟩
    generalize (addBases prepared.1 prepared.2).value = based at hmembers hkinds
    have hmerged : (prepared.2.foldlM mergeCategoryOf based).value = based :=
      Noted.foldlM_kept (P := fun q => q = based)
        (fun q owner heq => by rw [heq]; exact mergeCategoryOf_eq hkinds owner) _ rfl
    have hused : (prepared.2.foldlM addUsings based).value.memberStock = based.memberStock :=
      Noted.foldlM_kept (P := fun q => q.memberStock = based.memberStock)
        (fun q owner hq => (memberStock_addUsings q owner).trans hq) _ rfl
    rw [hmerged, originalMembers_congr (isOriginalMember_of_members (congrArg Prod.snd hused)),
      originalMembers_congr hmembers]

/-- Every entity of a build is accounted for: it is declared, a scope, a placeholder or an instance.
Where there are no categories, the members that are not copied for instances are those that are
declared, but for those that are passed over. -/
theorem entities_run (options : Options) (d : Document) :
    let after := (run options d).value
    let accepted := d.entities.filter (·.isUnderstood)
    after.2.entities = (accepted.map (·.name)).dedup.length + after.2.artificialScopes +
        after.2.unresolvedBases + after.2.templateInstances ∧
      ((∀ decl ∈ d.entities, EntityKind.decode decl.kind ≠ .ok .category) →
        after.1.members.toList.countP (·.templateMaster.isNone) + after.2.skippedMembers =
          (accepted.flatMap (·.members)).length) := by
  intro after accepted
  let prepared := (prepare (.empty options) d).value
  let linked := (prepared.2.foldlM addBasesOf (prepared.1, [])).value.1
  let assembled := (assemble (.empty options) d).value
  have hafter : after = (finish assembled).value := by
    rfl
  obtain ⟨hsize, hrecords⟩ : prepared.1.atlas.entities.size =
      (accepted.map (·.name)).dedup.length + prepared.1.summary.artificialScopes ∧
        prepared.1.memberRecords = (accepted.flatMap (·.members)).length := prepare_eq options d
  obtain ⟨horiginals, hmembers⟩ := originalStock_assemble options d
  have hlooked := memberStock_foldlM prepared.1 prepared.2
  have htally : assembled.tally = prepared.1.tally :=
    (congrArg Prod.fst horiginals).trans (congrArg Prod.fst hlooked)
  have hunresolved : after.2.unresolvedBases = linked.summary.unresolvedBases :=
    (settles_run options d).2
  have hregistered : IsRegistered (fun _ => True) prepared.1 prepared.2 :=
    isRegistered_prepare trivial options fun _ _ _ _ => trivial
  have hlinking := hregistered.isLinking_foldlM
  have hscopes : after.2.artificialScopes = prepared.1.summary.artificialScopes :=
    congrArg Prod.fst htally
  have hskipped : after.2.skippedMembers = prepared.1.summary.skippedMembers :=
    congrArg Prod.snd htally
  constructor
  · have hkept : after.1.originals = linked.atlas.entities.size := by
      rw [hafter, originals_congr (agrees_finish Entity.isTemplateInstance_modifyNamespace
        Entity.isTemplateInstance_skeleton assembled).isOriginal_eq,
        originals_congr (congrFun (congrArg Prod.snd horiginals)),
        hlinking.originals_eq hregistered.isUnlinked]
    have htotal : after.1.originals + after.2.templateInstances = after.2.entities :=
      after.1.originals_add_instances
    have hcount : linked.summary.unresolvedBases + prepared.1.atlas.entities.size =
        linked.atlas.entities.size := hlinking.count
    omega
  · intro hcategory
    have hregistered' : IsRegistered (· ≠ .category) prepared.1 prepared.2 := by
      refine isRegistered_prepare (by simp) options ?_
      rintro decl hdecl kind hkind rfl
      exact hcategory decl hdecl hkind
    have hstubbed := hregistered'.isLinking_foldlM.isStubbed
    have hcopied := hmembers fun id s hs =>
      (hstubbed.kind hregistered'.isUnlinked (by simp) hs).1
    have hfinal : after.1.members.toList.countP (·.templateMaster.isNone) =
        prepared.1.atlas.originalMembers := by
      rw [hafter, members_finish]
      exact hcopied.trans
        (originalMembers_congr (isOriginalMember_of_members (congrArg Prod.snd hlooked)))
    rw [hfinal, hskipped, ← hrecords]
    rfl

/-- A template in a scope that nobody declares, declared twice, and a class derived from an instance
of it and from a class that nobody declares. One member and the last record are not understood. -/
def storehouse : Document where
  entities :=
    [{ name := "util::Box", kind := "class", formals := ["T"],
       members := [{ name := "open", kind := "function", args := "(T item)" },
         { name := "seal", kind := "gesture" }] },
     { name := "util::Box", kind := "class", members := [{ name := "shut", kind := "function" }] },
     { name := "Crate", kind := "class", bases := [.plain "util::Box<int>", .plain "Wood"] },
     { name := "Lid", kind := "shape" }]

/-- Two names, a scope, a placeholder and an instance; two members of three are understood. -/
theorem entities_run_storehouse :
    let after := (run {} storehouse).value
    (∀ decl ∈ storehouse.entities, EntityKind.decode decl.kind ≠ .ok .category) ∧
      (after.2.artificialScopes, after.2.unresolvedBases, after.2.templateInstances) = (1, 1, 1) ∧
      after.2.entities = 5 ∧ after.2.skippedMembers = 1 ∧
      after.1.members.toList.countP (·.templateMaster.isNone) = 2 := by
  have hkinds : ∀ decl ∈ storehouse.entities, EntityKind.decode decl.kind ≠ .ok .category := by
    decide +kernel
  have hcounted : let s := (run {} storehouse).value.2
      s.artificialScopes = 1 ∧ s.unresolvedBases = 1 ∧ s.templateInstances = 1 ∧
        s.skippedMembers = 1 := by
    decide +kernel
  have hnames : ((storehouse.entities.filter (·.isUnderstood)).map (·.name)).dedup.length = 2 := by
    decide +kernel
  have hrecords :
      ((storehouse.entities.filter (·.isUnderstood)).flatMap (·.members)).length = 3 := by
    decide +kernel
  obtain ⟨hentities, hmembers⟩ := entities_run {} storehouse
  have hmembers := hmembers hkinds
  obtain ⟨hscopes, hplaceholders, hinstances, hskipped⟩ := hcounted
  refine ⟨hkinds, ?_, by omega, hskipped, by omega⟩
  rw [hscopes, hplaceholders, hinstances]

end Build

end SymbolAtlas
