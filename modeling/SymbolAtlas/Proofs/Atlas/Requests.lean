import SymbolAtlas.Proofs.Atlas.InPlace

/-!
# Requests and refusals

A request passes numbers to an operation. It is refused for the first of them that leads to
nothing, or to a class in place of a namespace or the other way round, and for no other reason; a
request that is refused leaves the atlas as it was.
-/

set_option autoImplicit false

namespace SymbolAtlas

/-! ## What is asked of a number -/

/-- What a number has to lead to. -/
inductive Demand where
  | anEntity (id : EntityId)
  | aClass (id : EntityId)
  | aNamespace (id : EntityId)
  | aMember (id : MemberId)
deriving DecidableEq, Repr

/-- What is wrong with a number: it is out of range, or leads to an entity of the other variety. -/
def Demand.fault? (a : Atlas) : Demand → Option Fault
  | anEntity id => if id.slot < a.entities.size then none else some (.unknownEntity id)
  | aClass id =>
    match a.entity? id with
    | none => some (.unknownEntity id)
    | some e => if e.kind.isNamespaceLike then some (.notAClass e.name) else none
  | aNamespace id =>
    match a.entity? id with
    | none => some (.unknownEntity id)
    | some e => if e.kind.isNamespaceLike then none else some (.notANamespace e.name)
  | aMember id => if id.slot < a.members.size then none else some (.unknownMember id)

namespace Atlas

variable {a : Atlas} {fault : Fault}
variable {id : EntityId}

theorem requireEntity_eq_error_iff :
    a.requireEntity id = .error fault ↔ (Demand.anEntity id).fault? a = some fault := by
  unfold requireEntity entity? Demand.fault?
  by_cases hid : id.slot < a.entities.size
  · simp [hid]
  · simp [hid, eq_comm]

theorem requireMember_eq_error_iff {id : MemberId} :
    a.requireMember id = .error fault ↔ (Demand.aMember id).fault? a = some fault := by
  unfold requireMember member? Demand.fault?
  by_cases hid : id.slot < a.members.size
  · simp [hid]
  · simp [hid, eq_comm]

theorem IsConnected.isClass_eq (h : a.IsConnected) {e : Entity} (he : a.entity? id = some e) :
    e.isClass = !e.kind.isNamespaceLike := by
  have hkind := h.kinds id e.standing (by rw [standing?, he]; rfl)
  rw [lineage?, he, Option.bind_some, Entity.lineage?, Option.isSome_map] at hkind
  exact hkind

theorem IsConnected.requireClass_eq_error_iff (h : a.IsConnected) :
    a.requireClass id = .error fault ↔ (Demand.aClass id).fault? a = some fault := by
  unfold requireClass Demand.fault?
  cases he : a.entity? id with
  | none => simp [he]
  | some e =>
    have hclass := h.isClass_eq he
    unfold Entity.isClass at hclass
    cases hc : e.class? <;> simp_all

theorem IsConnected.requireNamespace_eq_error_iff (h : a.IsConnected) :
    a.requireNamespace id = .error fault ↔ (Demand.aNamespace id).fault? a = some fault := by
  unfold requireNamespace Demand.fault?
  cases he : a.entity? id with
  | none => simp [he]
  | some e =>
    have hnamespace := e.isNamespace_eq
    rw [h.isClass_eq he] at hnamespace
    unfold Entity.isNamespace at hnamespace
    cases hn : e.namespace? <;> simp_all

end Atlas

/-! ## Requests -/

/-- An operation that can be refused. -/
inductive Request where
  | insertBase (child : EntityId) (edge : BaseEdge)
  | insertMember (owner : EntityId) (id : MemberId)
  | setFormals (id : EntityId) (formals : List String)
  | instantiate (template : EntityId) (spec : String)
  | instantiateVariable (template : EntityId) (spec : String)
  | mergeMembers (id : EntityId)
  | mergeCategory (id category : EntityId)
  | useNamespace (id target : EntityId)
  | useDeclaration (id : EntityId) (name : String) (target : UsingTarget)
  | closeUsing (id : EntityId)

namespace Request

open InPlace

variable {a : Atlas} {fault : Fault} {result : Except Fault (Noted Atlas)}

/-- What is asked of the numbers that a request passes, in the order in which they are looked at. -/
def demands : Request → List Demand
  | insertBase child edge => [.aClass child, .aClass edge.target]
  | insertMember owner id => [.aMember id, .anEntity owner]
  | setFormals id _ => [.aClass id]
  | instantiate template _ => [.aClass template]
  | instantiateVariable template _ => [.aClass template]
  | mergeMembers id => [.aClass id]
  | mergeCategory id category => [.aClass id, .aClass category]
  | useNamespace id target => [.aNamespace id, .aNamespace target]
  | useDeclaration id _ _ => [.aNamespace id]
  | closeUsing id => [.aNamespace id]

/-- What is wrong with the first number that does not lead where it has to. -/
def firstFault? (a : Atlas) (request : Request) : Option Fault :=
  request.demands.findSome? (·.fault? a)

/-- The atlas after a request, or the reason for refusing it. -/
def answer (a : Atlas) : Request → Except Fault (Noted Atlas)
  | insertBase child edge => a.insertBase child edge
  | insertMember owner id => a.insertMember owner id
  | setFormals id formals => do return pure (← a.setFormals id formals)
  | instantiate template spec => do return (·.1) <$> (← a.instantiate template spec)
  | instantiateVariable template spec => do
    return (·.1) <$> (← a.instantiateVariable template spec)
  | mergeMembers id => a.mergeMembers id
  | mergeCategory id category => a.mergeCategory id category
  | useNamespace id target => do return pure (← a.useNamespace id target)
  | useDeclaration id name target => do return pure (← a.useDeclaration id name target)
  | closeUsing id => do return pure (← a.closeUsing id)

/-- The request, carried out in place. -/
def inPlace : Request → InPlace Unit
  | insertBase child edge => InPlace.insertBase child edge
  | insertMember owner id => do
    let m ← demand (·.requireMember id)
    let e ← demand (·.requireEntity owner)
    if e.isClass then amend (·.fileInClass owner id m.protection true)
    else amend (·.fileInNamespace owner id)
  | setFormals id formals => do
    let _ ← demand (·.requireClass id)
    amend fun a => pure (a.modifyClass id fun c =>
      { c with formals := formals.map fun text => Argument.readFormal text.toList })
  | instantiate template spec => do
    let levels ← demand fun a => .ok (Atlas.instantiationLimit a.options)
    let _ ← instanceWithin levels template spec
  | instantiateVariable template spec => do
    let _ ← InPlace.instantiateVariable template spec
  | mergeMembers id => do
    let _ ← demand (·.requireClass id)
    amend fun a => (·.1) <$> a.mergeFrom id
  | mergeCategory id category => do
    let _ ← demand (·.requireClass id)
    let c ← demand (·.requireClass category)
    let e ← demand (·.requireEntity category)
    let isLeftOut ← demand fun a => .ok (e.isLocal && !a.options.extractLocalMethods)
    if isLeftOut then return ()
    else amend (·.adopt id category c e.isLocal)
  | useNamespace id target => do
    let _ ← demand (·.requireNamespace id)
    let _ ← demand (·.requireNamespace target)
    if id = target then return ()
    else
      amend fun a => pure (a.modifyNamespace id fun n =>
        { n with usingDirectives := n.usingDirectives.insertNew (a.name target) target })
  | useDeclaration id name target => do
    let _ ← demand (·.requireNamespace id)
    amend fun a => pure (a.modifyNamespace id fun n =>
      { n with usingDeclarations := n.usingDeclarations.insertNew name target })
  | closeUsing id => do
    let _ ← demand (·.requireNamespace id)
    amend fun a => pure (a.closeFrom id)

/-! ## In place or not -/

/-- The outcome of a request, and the atlas it leaves behind: the one that was there, if it is
refused. -/
def settled (a : Atlas) : Except Fault (Noted Atlas) → Noted (Except Fault Unit × Atlas)
  | .ok made => (.ok (), ·) <$> made
  | .error fault => pure (.error fault, a)

theorem settled_of_completes {x : InPlace Unit} {made : Noted Atlas}
    (h : Completes x a ((·, ()) <$> made)) : x.on a = settled a (.ok made) := by
  rw [h, Functor.map_map]
  rfl

theorem settled_eq_error_iff :
    (settled a result).value.1 = .error fault ↔ result = .error fault := by
  cases result <;> simp [settled]

theorem settled_demand {α : Type} {x : Atlas → Except Fault α} {f : α → InPlace Unit}
    {g : α → Except Fault (Noted Atlas)}
    (h : ∀ value, x a = .ok value → (f value).on a = settled a (g value)) :
    (demand x >>= f).on a = settled a (x a >>= g) := by
  cases hlook : x a with
  | error fault => exact (refuses_demand hlook).bind f
  | ok value =>
    rw [on_bind, completes_demand hlook, map_pure]
    exact h value hlook

theorem settled_amend (change : Atlas → Noted Atlas) :
    (amend change).on a = settled a (pure (change a)) :=
  settled_of_completes (completes_amend change a)

theorem settled_return : (pure () : InPlace Unit).on a = settled a (pure (pure a)) :=
  rfl

theorem settled_insertBase (h : a.IsConnected) (child : EntityId) (edge : BaseEdge) :
    (InPlace.insertBase child edge).on a = settled a (a.insertBase child edge) := by
  unfold Atlas.insertBase
  cases hchild : a.requireClass child with
  | error fault => exact (refuses_demand hchild).bind _
  | ok c =>
    cases htarget : a.requireClass edge.target with
    | error fault =>
      exact (completes_demand hchild).bind_refuses ((refuses_demand htarget).bind _)
    | ok c' =>
      exact settled_of_completes (reaches_insertBase h edge ⟨c, hchild⟩ ⟨c', htarget⟩).completes

theorem settled_discard {α : Type} {x : InPlace α} {result : Except Fault (Noted (Atlas × α))}
    (hok : ∀ made, result = .ok made → Completes x a made)
    (herror : ∀ fault, result = .error fault → Refuses x a fault) :
    (x >>= fun _ => pure ()).on a = settled a (result >>= fun made => pure ((·.1) <$> made)) := by
  cases result with
  | error fault => exact (herror fault rfl).bind _
  | ok made =>
    have hdone := (hok made rfl).bind (f := fun _ => pure ()) (g := fun m => pure (m.1, ()))
      (completes_pure _ _)
    refine settled_of_completes ?_
    rwa [Functor.map_map]

section

variable (h : a.IsConnected) (template : EntityId) (spec : String)

include h

theorem settled_instantiate :
    (instantiate template spec).inPlace.on a =
      settled a ((instantiate template spec).answer a) := by
  refine settled_demand (g := fun _ => (instantiate template spec).answer a)
    fun levels hlevels => ?_
  obtain rfl := Except.ok.inj hlevels
  refine settled_discard (fun made hmade => ?_) (fun fault hfault => ?_)
  · obtain ⟨t, ht, hmade⟩ := Except.bind_eq_ok hmade
    obtain rfl := Except.ok.inj hmade
    exact (delivers_instanceWithin _ h ⟨t, ht⟩ spec).completes
  · cases ht : a.requireClass template with
    | error fault' =>
      rw [Atlas.instantiate, ht] at hfault
      obtain rfl := Except.error.inj hfault
      exact refuses_instanceWithin _ ht spec
    | ok t =>
      rw [Atlas.instantiate, ht] at hfault
      cases hfault

theorem settled_instantiateVariable :
    (instantiateVariable template spec).inPlace.on a =
      settled a ((instantiateVariable template spec).answer a) := by
  refine settled_discard (fun made hmade => ?_) (fun fault hfault => ?_)
  · obtain ⟨t, ht, -⟩ := Except.bind_eq_ok hmade
    obtain ⟨made', hmade', hdone⟩ := completes_instantiateVariable h ⟨t, ht⟩ spec
    obtain rfl := Except.ok.inj (hmade.symm.trans hmade')
    exact hdone
  · cases ht : a.requireClass template with
    | error fault' =>
      rw [Atlas.instantiateVariable, ht] at hfault
      obtain rfl := Except.error.inj hfault
      exact (refuses_demand ht).bind _
    | ok t =>
      obtain ⟨made, hmade, -⟩ := completes_instantiateVariable h ⟨t, ht⟩ spec
      rw [hmade] at hfault
      cases hfault

theorem on_inPlace (request : Request) : request.inPlace.on a = settled a (request.answer a) := by
  cases request with
  | insertBase child edge => exact settled_insertBase h child edge
  | insertMember owner id =>
    refine settled_demand fun m _ => settled_demand fun e _ => ?_
    split
    · exact settled_amend _
    · exact settled_amend _
  | setFormals id formals =>
    rw [answer, Atlas.setFormals, bind_assoc]
    exact settled_demand fun c _ => settled_amend _
  | instantiate template spec => exact settled_instantiate h template spec
  | instantiateVariable template spec => exact settled_instantiateVariable h template spec
  | mergeMembers id => exact settled_demand fun c _ => settled_amend _
  | mergeCategory id category =>
    refine settled_demand fun t _ => settled_demand fun c _ => settled_demand fun e _ => ?_
    refine settled_demand (x := fun a => .ok (e.isLocal && !a.options.extractLocalMethods))
      (g := fun isLeftOut =>
        if isLeftOut then pure (pure a) else pure (a.adopt id category c e.isLocal))
      fun isLeftOut _ => ?_
    split
    · exact settled_return
    · exact settled_amend _
  | useNamespace id target =>
    rw [answer, Atlas.useNamespace, bind_assoc]
    refine settled_demand fun n _ => ?_
    rw [bind_assoc]
    refine settled_demand fun n' _ => ?_
    split
    · exact settled_return
    · exact settled_amend _
  | useDeclaration id name target =>
    rw [answer, Atlas.useDeclaration, bind_assoc]
    exact settled_demand fun n _ => settled_amend _
  | closeUsing id =>
    rw [answer, Atlas.closeUsing, bind_assoc]
    exact settled_demand fun n _ => settled_amend _

end

/-! ## Reasons for refusal -/

theorem eq_error_iff_of_ok {made : Noted Atlas} (h : result = .ok made) :
    result = .error fault ↔ ([] : List Demand).findSome? (·.fault? a) = some fault := by
  simp [h]

theorem bind_eq_error_iff {α : Type} {x : Except Fault α} {f : α → Except Fault (Noted Atlas)}
    {demand : Demand} {demands : List Demand}
    (hx : ∀ {fault}, x = .error fault ↔ demand.fault? a = some fault)
    (hf : ∀ value, x = .ok value →
      (f value = .error fault ↔ demands.findSome? (·.fault? a) = some fault)) :
    x >>= f = .error fault ↔ (demand :: demands).findSome? (·.fault? a) = some fault := by
  rw [List.findSome?_cons]
  cases hlook : x with
  | error fault' =>
    rw [hx.mp hlook]
    simp [bind, Except.bind]
  | ok value =>
    have hnone : demand.fault? a = none := by
      cases hfault : demand.fault? a with
      | none => rfl
      | some fault' => exact nomatch hlook.symm.trans (hx.mpr hfault)
    rw [hnone]
    exact hf value hlook

/-- A request fails with the first fault that it has, and else not at all. -/
theorem answer_eq_error_iff (h : a.IsConnected) (request : Request) :
    request.answer a = .error fault ↔ request.firstFault? a = some fault := by
  have hclass {id : EntityId} {fault : Fault} :
      a.requireClass id = .error fault ↔ (Demand.aClass id).fault? a = some fault :=
    h.requireClass_eq_error_iff
  have hnamespace {id : EntityId} {fault : Fault} :
      a.requireNamespace id = .error fault ↔ (Demand.aNamespace id).fault? a = some fault :=
    h.requireNamespace_eq_error_iff
  cases request with
  | insertBase child edge =>
    refine bind_eq_error_iff hclass fun _ _ => bind_eq_error_iff hclass fun _ _ => ?_
    exact eq_error_iff_of_ok rfl
  | insertMember owner id =>
    refine bind_eq_error_iff Atlas.requireMember_eq_error_iff fun m _ => ?_
    refine bind_eq_error_iff Atlas.requireEntity_eq_error_iff fun e _ => ?_
    split
    · exact eq_error_iff_of_ok rfl
    · exact eq_error_iff_of_ok rfl
  | setFormals id formals =>
    rw [answer, Atlas.setFormals, bind_assoc]
    exact bind_eq_error_iff hclass fun _ _ => eq_error_iff_of_ok rfl
  | instantiate template spec =>
    rw [answer, Atlas.instantiate, bind_assoc]
    exact bind_eq_error_iff hclass fun _ _ => eq_error_iff_of_ok rfl
  | instantiateVariable template spec =>
    have hfirst : (instantiateVariable template spec).answer a =
        a.requireClass template >>= fun _ => (instantiateVariable template spec).answer a := by
      rw [answer, Atlas.instantiateVariable]
      cases a.requireClass template <;> rfl
    rw [hfirst]
    refine bind_eq_error_iff hclass fun t ht => ?_
    obtain ⟨made, hmade, -⟩ := completes_instantiateVariable h ⟨t, ht⟩ spec
    have hok : (instantiateVariable template spec).answer a = .ok ((·.1) <$> made) := by
      rw [answer, hmade]
      rfl
    exact eq_error_iff_of_ok hok
  | mergeMembers id => exact bind_eq_error_iff hclass fun _ _ => eq_error_iff_of_ok rfl
  | mergeCategory id category =>
    refine bind_eq_error_iff hclass fun _ _ => bind_eq_error_iff hclass fun c hc => ?_
    obtain ⟨e, he⟩ := Atlas.LeadsToClass.exists_entity ⟨c, hc⟩
    rw [Atlas.requireEntity_of_entity? he]
    refine eq_error_iff_of_ok (?_ : _ = Except.ok (
      if e.isLocal && !a.options.extractLocalMethods then pure a
      else a.adopt id category c e.isLocal))
    exact (apply_ite Except.ok _ _ _).symm
  | useNamespace id target =>
    rw [answer, Atlas.useNamespace, bind_assoc]
    refine bind_eq_error_iff hnamespace fun _ _ => ?_
    rw [bind_assoc]
    refine bind_eq_error_iff hnamespace fun _ _ => ?_
    split
    · exact eq_error_iff_of_ok rfl
    · exact eq_error_iff_of_ok rfl
  | useDeclaration id name target =>
    rw [answer, Atlas.useDeclaration, bind_assoc]
    exact bind_eq_error_iff hnamespace fun _ _ => eq_error_iff_of_ok rfl
  | closeUsing id =>
    rw [answer, Atlas.closeUsing, bind_assoc]
    exact bind_eq_error_iff hnamespace fun _ _ => eq_error_iff_of_ok rfl

/-- Whatever has been done to an atlas, a request is refused for a number that is passed to it, and
then nothing has been stored; otherwise it goes through to the end. -/
theorem refusal_performAll (options : Options) (history : List Operation) (request : Request) :
    let a := Operation.performAll (.empty options) history
    let after := request.inPlace.on a
    (∀ fault, after.value.1 = .error fault ↔ request.firstFault? a = some fault) ∧
    (∀ fault, request.answer a = .error fault ↔ request.firstFault? a = some fault) ∧
    (∀ fault, after.value.1 = .error fault → after.value.2 = a ∧ after.notices = []) ∧
    ∀ made, request.answer a = .ok made →
      after.value.1 = .ok () ∧ after.value.2 = made.value ∧ after.notices = made.notices := by
  intro a after
  have hconnected : a.IsConnected :=
    ((Operation.changes_performAll history (.empty options) nofun : Atlas.Changes false _ _).isWired
      (.empty options)).isConnected
  have hafter : after = settled a (request.answer a) := request.on_inPlace hconnected
  have hreasons {fault : Fault} :
      request.answer a = .error fault ↔ request.firstFault? a = some fault :=
    request.answer_eq_error_iff hconnected
  rw [hafter]
  refine ⟨fun fault => ?_, fun fault => hreasons, fun fault hfault => ?_, fun made hmade => ?_⟩
  · rw [settled_eq_error_iff]
    exact hreasons
  · rw [settled_eq_error_iff.mp hfault]
    exact ⟨rfl, rfl⟩
  · rw [hmade]
    exact ⟨rfl, rfl, List.append_nil _⟩

/-- A template with a template as its base, and a namespace. -/
def stowing : List Operation :=
  [.register "Crate" .classKind {}, .setFormals ⟨1⟩ ["T"], .register "Box" .classKind {},
    .setFormals ⟨2⟩ ["T"], .insertBase 2 1 { target := ⟨1⟩, templateSpec := "<T>" },
    .register "depot" .namespaceKind {}]

/-- A namespace is refused as a base, and nothing happens to the class. An instance is made with the
instance of its base. -/
theorem refusal_performAll_stowing :
    let a := Operation.performAll (.empty {}) stowing
    let refused := ((insertBase ⟨2⟩ { target := ⟨3⟩ }).inPlace.on a).value
    let made := ((instantiate ⟨2⟩ "<int>").inPlace.on a).value
    refused.1 = .error (.notAClass "depot") ∧ refused.2 = a ∧
      made.1 = .ok () ∧ made.2.entities.size = 5 := by
  have hbase := refusal_performAll {} stowing (insertBase ⟨2⟩ { target := ⟨3⟩ })
  have hinstance := refusal_performAll {} stowing (instantiate ⟨2⟩ "<int>")
  have hfault : (insertBase ⟨2⟩ { target := ⟨3⟩ }).firstFault?
      (Operation.performAll (.empty {}) stowing) = some (.notAClass "depot") := by decide +kernel
  have hsize : ((instantiate ⟨2⟩ "<int>").answer
      (Operation.performAll (.empty {}) stowing)).toOption.map (·.value.entities.size) = some 5 := by
    decide +kernel
  generalize Operation.performAll (.empty {}) stowing = a at hbase hinstance hfault hsize ⊢
  have hrefused := (hbase.1 _).mpr hfault
  refine ⟨hrefused, (hbase.2.2.1 _ hrefused).1, ?_⟩
  cases hresult : (instantiate ⟨2⟩ "<int>").answer a with
  | error fault =>
    rw [hresult] at hsize
    cases hsize
  | ok result =>
    rw [hresult] at hsize
    obtain ⟨hok, hatlas, -⟩ := hinstance.2.2.2 result hresult
    exact ⟨hok, hatlas ▸ Option.some.inj hsize⟩

end Request

end SymbolAtlas
