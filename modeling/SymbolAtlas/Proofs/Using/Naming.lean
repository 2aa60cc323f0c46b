import SymbolAtlas.Proofs.Atlas.Operations
import SymbolAtlas.Proofs.Using.Closure

/-!
# Names of used namespaces

A namespace is registered under its name, and uses others under theirs. Operations keep that up: what
they do to classes and members has nothing to do with it, and the only entities that are added
without being registered are instances of templates, which are classes. So the using relations of
every atlas that operations lead to are sound.
-/

set_option autoImplicit false

namespace SymbolAtlas

/-- What an entity has to do with using relations. -/
structure Usage where
  id : EntityId
  name : String
  /-- The namespaces that it uses; none for a class. -/
  directives? : Option (Dict EntityId)

namespace Entity

def usage (e : Entity) : Usage where
  id := e.id
  name := e.name
  directives? := e.used?

theorem usage_modifyClass (e : Entity) (f : ClassBody → ClassBody) :
    (e.modifyClass f).usage = e.usage := by
  unfold usage
  rw [used?_modifyClass]
  unfold modifyClass
  split <;> rfl

theorem usage_modifyNamespace (e : Entity) (f : NamespaceBody → NamespaceBody) :
    (e.modifyNamespace f).usage =
      { e.usage with directives? := (e.namespace?.map f).map (·.usingDirectives) } := by
  unfold usage used?
  rw [namespace?_modifyNamespace]
  unfold modifyNamespace
  split <;> rfl

theorem usage_skeleton (e : Entity) : e.skeleton.usage = e.usage := by
  unfold usage skeleton used? namespace?
  cases e.body <;> rfl

end Entity

namespace Atlas

variable {a b : Atlas} {name spec : String} {n target template : EntityId} {u : Usage}

/-- The usage of the entity with a number. -/
def usage? (a : Atlas) (id : EntityId) : Option Usage :=
  (a.entity? id).map (·.usage)

/-- The number is that of a namespace with the given name. -/
def HoldsNamed (a : Atlas) (id : EntityId) (name : String) : Prop :=
  0 < id.number ∧ ∃ u, a.usage? id = some u ∧ u.directives?.isSome = true ∧ u.name = name

/-- Entities stand in their places; namespaces are found by their names, and use others under
theirs. -/
structure IsNamed (a : Atlas) : Prop where
  place : ∀ id u, a.usage? id = some u → u.id = .ofSlot id.slot
  found : ∀ id u, a.usage? id = some u → u.directives?.isSome = true → a.find? u.name = some u.id
  used : ∀ id u, a.usage? id = some u → ∀ d ∈ u.directives?, ∀ name target,
    d.get? name = some target → target ≠ u.id ∧ a.HoldsNamed target name

/-- An entity stays who it is, and uses what it used, or other namespaces under their names. -/
structure Follows (a : Atlas) (v u : Usage) : Prop where
  id : u.id = v.id
  name : u.name = v.name
  isSome : u.directives?.isSome = v.directives?.isSome
  used : ∀ d ∈ u.directives?, ∀ name target, d.get? name = some target →
    (∃ d' ∈ v.directives?, d'.get? name = some target) ∨ target ≠ v.id ∧ a.HoldsNamed target name

theorem Follows.refl (u : Usage) : a.Follows u u :=
  ⟨rfl, rfl, rfl, fun d hd _ _ hget => .inl ⟨d, hd, hget⟩⟩

/-! ## Reading -/

theorem namespace?_map_eq (a : Atlas) (id : EntityId) :
    (a.namespace? id).map (·.usingDirectives) = (a.usage? id).bind (·.directives?) := by
  unfold namespace? usage? Entity.usage Entity.used?
  cases a.entity? id <;> rfl

theorem name_of_usage? {id : EntityId} (h : a.usage? id = some u) : a.name id = u.name := by
  obtain ⟨e, he, rfl⟩ := Option.map_eq_some_iff.mp h
  rw [name, he]
  rfl

theorem directives_of_usage? {id : EntityId} (h : a.usage? id = some u) {d : Dict EntityId}
    (hd : u.directives? = some d) : a.directives id = d := by
  unfold directives
  rw [namespace?_map_eq, h, Option.bind_some, hd]
  rfl

theorem usage?_allocate (a : Atlas) (name : String) (kind : EntityKind) (location : Location)
    (id : EntityId) :
    (a.allocate name kind location).1.usage? id =
      if id.slot = a.entities.size then
        some {
          id := .ofSlot a.entities.size
          name
          directives? := if kind.isNamespaceLike then some .empty else none }
      else a.usage? id := by
  unfold usage?
  rw [entity?_allocate]
  split
  · cases hkind : kind.isNamespaceLike <;>
      simp [Entity.usage, Entity.used?, Entity.namespace?, Entity.declare, hkind]
  · rfl

namespace IsNamed

variable {id : EntityId}

theorem isNumbered (h : a.IsNamed) : a.IsNumbered := by
  intro slot hslot
  refine h.place (.ofSlot slot) a.entities[slot].usage ?_
  unfold usage? entity?
  rw [EntityId.slot_ofSlot, Array.getElem?_eq_getElem hslot]
  rfl

theorem exists_usage_of_mem (h : a.IsNamed) (hn : n ∈ a.namespaceIds) :
    ∃ u, a.usage? n = some u ∧ u.directives? = some (a.directives n) ∧ u.id = n := by
  obtain ⟨hslot, hsome⟩ := (h.isNumbered.mem_namespaceIds_iff n).mp hn
  obtain ⟨body, hbody⟩ := Option.isSome_iff_exists.mp hsome
  obtain ⟨e, he, hnamespace⟩ := Option.bind_eq_some_iff.mp hbody
  have hu : a.usage? n = some e.usage := by rw [usage?, he]; rfl
  have hd : e.usage.directives? = some body.usingDirectives := by
    rw [Entity.usage, Entity.used?, hnamespace]
    rfl
  exact ⟨e.usage, hu, hd.trans (congrArg some (directives_of_usage? hu hd).symm),
    (h.place n _ hu).trans hslot.symm⟩

theorem mem_namespaceIds (h : a.IsNamed) (hn : a.HoldsNamed n name) : n ∈ a.namespaceIds := by
  obtain ⟨hpos, u, hu, hsome, -⟩ := hn
  refine (h.isNumbered.mem_namespaceIds_iff n).mpr ⟨?_, ?_⟩
  · exact EntityId.eq_of_slot hpos (Nat.succ_pos _) rfl
  · rw [← Option.isSome_map, namespace?_map_eq, hu]
    exact hsome

theorem hasSoundUsing (h : a.IsNamed) : a.HasSoundUsing := by
  refine ⟨h.isNumbered, fun n hn entry hentry => ?_, fun v hv w hw hname => ?_⟩
  · obtain ⟨u, hu, hd, rfl⟩ := h.exists_usage_of_mem hn
    have hget := (Dict.mem_toList_iff _ entry.1 entry.2).mp hentry
    obtain ⟨hne, hnamed⟩ := h.used _ u hu _ hd entry.1 entry.2 hget
    refine ⟨h.mem_namespaceIds hnamed, ?_, hne⟩
    obtain ⟨-, u', hu', -, hname⟩ := hnamed
    rw [name_of_usage? hu', hname]
  · obtain ⟨u, hu, hd, rfl⟩ := h.exists_usage_of_mem hv
    obtain ⟨u', hu', hd', rfl⟩ := h.exists_usage_of_mem hw
    have hfound := h.found _ u hu (by rw [hd]; rfl)
    have hfound' := h.found _ u' hu' (by rw [hd']; rfl)
    rw [name_of_usage? hu, name_of_usage? hu'] at hname
    rw [hname, hfound'] at hfound
    exact (Option.some.inj hfound).symm

/-! ## Changing -/

section

variable (h : a.IsNamed)

include h

/-- Entities follow what they were. New ones are classes, or namespaces that are registered under
their names. -/
theorem of_follows (hfind : ∀ name id, a.find? name = some id → b.find? name = some id)
    (hkept : ∀ id v, a.usage? id = some v → ∃ u, b.usage? id = some u ∧ a.Follows v u)
    (hnew : ∀ id u, a.usage? id = none → b.usage? id = some u → u.id = .ofSlot id.slot ∧
      (u.directives? = none ∨ u.directives? = some .empty ∧ b.find? u.name = some u.id)) :
    b.IsNamed := by
  have hcases {id : EntityId} {u : Usage} (hu : b.usage? id = some u) :
      (∃ v, a.usage? id = some v ∧ a.Follows v u) ∨ a.usage? id = none := by
    cases hv : a.usage? id with
    | none => exact .inr rfl
    | some v =>
      obtain ⟨u', hu', hfollows⟩ := hkept id v hv
      obtain rfl := Option.some.inj (hu'.symm.trans hu)
      exact .inl ⟨v, rfl, hfollows⟩
  have hnamed {id : EntityId} {name : String} : a.HoldsNamed id name → b.HoldsNamed id name := by
    rintro ⟨hpos, v, hv, hsome, rfl⟩
    obtain ⟨u, hu, hfollows⟩ := hkept id v hv
    exact ⟨hpos, u, hu, hfollows.isSome.trans hsome, hfollows.name⟩
  refine ⟨fun id u hu => ?_, fun id u hu hsome => ?_, fun id u hu d hd name target hget => ?_⟩
  · rcases hcases hu with ⟨v, hv, hfollows⟩ | hnone
    · exact hfollows.id.trans (h.place id v hv)
    · exact (hnew id u hnone hu).1
  · rcases hcases hu with ⟨v, hv, hfollows⟩ | hnone
    · rw [hfollows.id, hfollows.name]
      exact hfind _ _ (h.found id v hv (hfollows.isSome.symm.trans hsome))
    · rcases (hnew id u hnone hu).2 with hclass | ⟨-, hfound⟩
      · simp [hclass] at hsome
      · exact hfound
  · rcases hcases hu with ⟨v, hv, hfollows⟩ | hnone
    · rw [hfollows.id]
      rcases hfollows.used d hd name target hget with ⟨d', hd', hget'⟩ | ⟨hne, htarget⟩
      · exact (h.used id v hv d' hd' name target hget').imp_right hnamed
      · exact ⟨hne, hnamed htarget⟩
    · rcases (hnew id u hnone hu).2 with hclass | ⟨hempty, -⟩
      · simp [hclass] at hd
      · rw [hempty] at hd
        cases hd
        cases hget

theorem of_agrees (hagrees : Agrees Entity.usage a b) : b.IsNamed := by
  refine h.of_follows (fun name id hid => ?_) (fun id v hv => ?_) fun id u hnone hu => ?_
  · rw [find?, hagrees.1]
    exact hid
  · exact ⟨v, (hagrees.entity?_eq id).trans hv, .refl v⟩
  · cases hnone.symm.trans ((hagrees.entity?_eq id).symm.trans hu)

theorem of_sharesSkeleton (hshares : a.SharesSkeleton b) : b.IsNamed :=
  h.of_agrees (hshares.view Entity.usage_skeleton)

theorem modifyEntity (id : EntityId) {f : Entity → Entity} (hf : ∀ e, (f e).usage = e.usage) :
    (a.modifyEntity id f).IsNamed :=
  h.of_agrees (.modifyEntity a id hf)

theorem modifyClass (id : EntityId) (f : ClassBody → ClassBody) : (a.modifyClass id f).IsNamed :=
  h.modifyEntity id fun e => e.usage_modifyClass f

theorem push (hid : u.id = .ofSlot a.entities.size)
    (husage : ∀ id, b.usage? id = if id.slot = a.entities.size then some u else a.usage? id)
    (hnew : u.directives? = none ∨ u.directives? = some .empty ∧ b.find? u.name = some u.id)
    (hfind : ∀ name id, a.find? name = some id → b.find? name = some id) : b.IsNamed := by
  refine h.of_follows hfind (fun id v hv => ⟨v, ?_, .refl v⟩) fun id v hnone hv => ?_
  · obtain ⟨e, he, -⟩ := Option.map_eq_some_iff.mp hv
    rw [husage, if_neg (Nat.ne_of_lt (slot_lt_of_entity? he)), hv]
  · rw [husage, hnone] at hv
    split at hv
    · next hslot =>
      cases hv
      exact ⟨hslot ▸ hid, hnew⟩
    · cases hv

theorem allocate (name : String) {kind : EntityKind} (hkind : kind.isNamespaceLike = false)
    (location : Location) : (a.allocate name kind location).1.IsNamed := by
  refine h.push rfl (fun id => a.usage?_allocate name kind location id) (.inl ?_) fun _ _ hid => hid
  simp [hkind]

theorem register (name : String) (kind : EntityKind) (location : Location) :
    (a.register name kind location).1.IsNamed := by
  unfold Atlas.register
  split
  · exact h
  · next hfree =>
    refine h.push rfl (fun id => a.usage?_allocate name kind location id) ?_ fun name' id hid => ?_
    · cases hkind : kind.isNamespaceLike with
      | false => exact .inl rfl
      | true => exact .inr ⟨rfl, by simp [find?, Dict.get?_insert]; rfl⟩
    · exact Dict.get?_insert_of_free hfree _ hid

end

/-! ## Using -/

theorem modifyNamespace (h : a.IsNamed) (id : EntityId) {f : NamespaceBody → NamespaceBody}
    (hf : ∀ n, a.namespace? id = some n → ∀ name target,
      (f n).usingDirectives.get? name = some target →
      n.usingDirectives.get? name = some target ∨
        target ≠ .ofSlot id.slot ∧ a.HoldsNamed target name) : (a.modifyNamespace id f).IsNamed := by
  have husage (id' : EntityId) : (a.modifyNamespace id f).usage? id' =
      if id.slot = id'.slot then (a.entity? id').map fun e =>
        { e.usage with directives? := (e.namespace?.map f).map (·.usingDirectives) }
      else a.usage? id' := by
    unfold usage? Atlas.modifyNamespace
    rw [entity?_modifyEntity]
    split
    · rw [Option.map_map]
      congr 1
      funext e
      exact e.usage_modifyNamespace f
    · rfl
  refine h.of_follows (fun _ _ hid => hid) (fun id' v hv => ?_) fun id' u hnone hu => ?_
  · rw [husage]
    split
    · next hslot =>
      obtain ⟨e, he, rfl⟩ := Option.map_eq_some_iff.mp hv
      rw [he]
      refine ⟨_, rfl, rfl, rfl, ?_, fun d hd name target hget => ?_⟩
      · simp [Entity.usage, Entity.used?]
      · obtain ⟨n', hn', rfl⟩ := Option.map_eq_some_iff.mp hd
        obtain ⟨n, hn, rfl⟩ := Option.map_eq_some_iff.mp hn'
        have hbody : a.namespace? id = some n := by
          rw [namespace?, a.entity?_eq_of_slot hslot, he]
          exact hn
        rw [h.place id' e.usage hv, ← hslot]
        refine (hf n hbody name target hget).imp_left fun hold => ?_
        exact ⟨n.usingDirectives, by simp [Entity.usage, Entity.used?, hn], hold⟩
    · exact ⟨v, hv, .refl v⟩
  · rw [husage, hnone] at hu
    split at hu
    · rw [Option.map_eq_none_iff.mp hnone] at hu
      cases hu
    · cases hu

theorem holdsNamed_of_get? (h : a.IsNamed) (hget : (a.directives n).get? name = some target) :
    a.HoldsNamed target name := by
  unfold directives at hget
  rw [namespace?_map_eq] at hget
  cases hu : a.usage? n with
  | none => simp [hu, Dict.get?, Dict.empty] at hget
  | some u =>
    cases hd : u.directives? with
    | none => simp [hu, hd, Dict.get?, Dict.empty] at hget
    | some d =>
      rw [hu, Option.bind_some, hd] at hget
      exact (h.used n u hu d hd name target hget).2

theorem holdsNamed_of_requireNamespace {n : NamespaceBody} (hn : a.requireNamespace id = .ok n)
    (hpos : 0 < id.number) : a.HoldsNamed id (a.name id) := by
  unfold requireNamespace at hn
  split at hn
  · cases hn
  · next e he =>
    split at hn
    · next n' hbody =>
      refine ⟨hpos, e.usage, by rw [usage?, he]; rfl, ?_, ?_⟩
      · simp [Entity.usage, Entity.used?, hbody]
      · rw [Atlas.name, he]
        rfl
    · cases hn

section

variable (h : a.IsNamed)

include h

theorem useNamespace (hid : 0 < id.number) (htarget : 0 < target.number)
    (hb : a.useNamespace id target = .ok b) : b.IsNamed := by
  obtain ⟨n, -, hb⟩ := Except.bind_eq_ok hb
  obtain ⟨n', hn', hb⟩ := Except.bind_eq_ok hb
  split at hb
  · cases hb
    exact h
  · next hne =>
    cases hb
    refine h.modifyNamespace id fun n _ name target' hget => ?_
    rw [Dict.get?_insertNew] at hget
    split at hget
    · next hname =>
      subst hname
      cases hold : n.usingDirectives.get? (a.name target) with
      | some old => exact .inl (by rw [hold] at hget; exact hget)
      | none =>
        rw [hold, Option.getD_none] at hget
        cases hget
        refine .inr ⟨fun heq => hne ?_, holdsNamed_of_requireNamespace hn' htarget⟩
        exact EntityId.eq_of_slot hid htarget (by rw [heq]; rfl)
    · exact .inl hget

theorem useDeclaration {target : UsingTarget} (hb : a.useDeclaration id name target = .ok b) :
    b.IsNamed := by
  obtain ⟨n, -, hb⟩ := Except.bind_eq_ok hb
  cases hb
  exact h.modifyNamespace id fun n _ name target hget => .inl hget

theorem absorbUsed {u : EntityId} (hu : 0 < u.number) : (a.absorbUsed u).IsNamed := by
  refine h.modifyNamespace u fun n _ name target hget => ?_
  rw [Dict.get?_foldl_insertNew] at hget
  rcases Option.or_eq_some_iff.mp hget with hold | ⟨-, hlookup⟩
  · exact .inl hold
  · obtain ⟨hne, v, -, hget⟩ := (a.mem_broughtDirectives_iff u name target).mp
      (Dict.mem_of_lookup hlookup)
    refine .inr ⟨fun heq => hne (heq.trans ?_), h.holdsNamed_of_get? hget⟩
    exact EntityId.eq_of_slot (Nat.succ_pos _) hu rfl

theorem closeFrom (hid : 0 < id.number) : (a.closeFrom id).IsNamed := by
  rw [Atlas.closeFrom]
  split
  · have hpos : ∀ u ∈ a.usingOrder id, 0 < u.number := by
      refine a.usingGraph.finished_kind _ (fun x y hedge => ?_) hid
      have hused : y ∈ a.usedNamespaces x := hedge
      rw [usedNamespaces, Dict.mem_values_iff] at hused
      obtain ⟨name, hget⟩ := hused
      exact (h.holdsNamed_of_get? hget).1
    have hmarked : ((a.usingOrder id).foldl markClosed a).IsNamed := by
      refine foldl_kept (fun b u hb => ?_) _ h
      exact hb.modifyNamespace u fun n _ name target hget => .inl hget
    exact List.foldlRecOn _ _ hmarked fun b hb u hu => hb.absorbUsed (hpos u hu)
  · exact h

theorem closeUsing (hid : 0 < id.number) (hb : a.closeUsing id = .ok b) : b.IsNamed := by
  obtain ⟨n, -, hb⟩ := Except.bind_eq_ok hb
  cases hb
  exact h.closeFrom hid

theorem closeAllUsing : a.closeAllUsing.IsNamed := by
  refine List.foldlRecOn _ _ h fun b hb n hn => hb.closeFrom ?_
  rw [((h.isNumbered.mem_namespaceIds_iff n).mp hn).1]
  exact Nat.succ_pos _

end

/-! ## Classes -/

variable (h : a.IsNamed)

include h

theorem setOuter (inner outer : EntityId) : (a.setOuter inner outer).IsNamed :=
  h.of_agrees (agrees_setOuter (fun _ _ _ _ => rfl) a inner outer)

theorem linkBase (child : EntityId) (edge : BaseEdge) : (a.linkBase child edge).value.IsNamed :=
  linkBase_kept (fun _ id f _ hb => hb.modifyClass id f) child edge h

theorem addInstance (generic : EntityId) {master : Entity}
    (hkind : master.kind.isNamespaceLike = false) (key : String) :
    (a.addInstance generic master key).value.1.IsNamed := by
  rw [addInstance_eq, Noted.value_bind]
  refine IsNamed.of_sharesSkeleton ?_ (SharesSkeleton.copyMembers _ _ _ _)
  apply IsNamed.modifyClass
  apply IsNamed.modifyClass
  exact (h.allocate _ hkind _).modifyEntity _ fun e => rfl

theorem instantiate (ha : a.IsWired) (ht : a.HoldsClass template)
    {made : Noted (Atlas × EntityId × Bool)} (hmade : a.instantiate template spec = .ok made) :
    made.value.1.IsNamed := by
  have hkeep := (instancesKeep_changes false ha).and (R := IsNamed)
    (fun key hb ht hmaster hnamed => hnamed.addInstance _
      ((hb.isWired ha).isNamespaceLike_eq_false ((hb.isWired ha).holdsClass_genericOf ht) hmaster)
      key) fun child edge hnamed => hnamed.linkBase child edge
  exact (hkeep.instantiate ⟨.refl, h⟩ ht hmade).1.holds.2

theorem instantiateVariable {made : Noted (Atlas × EntityId)}
    (hmade : a.instantiateVariable template spec = .ok made) : made.value.1.IsNamed := by
  rcases instantiateVariable_cases hmade with heq | ⟨master, -, -, heq⟩ <;> rw [heq]
  · exact h
  · apply IsNamed.modifyClass
    apply IsNamed.modifyClass
    refine IsNamed.of_sharesSkeleton ?_ (SharesSkeleton.copyMembers _ _ _ _)
    exact (h.allocate _ rfl _).modifyEntity _ fun e => rfl

theorem mergeCategory {category : EntityId} {merged : Noted Atlas}
    (hmerged : a.mergeCategory id category = .ok merged) : merged.value.IsNamed :=
  mergeCategory_kept (fun _ id f _ hb => hb.modifyClass id f)
    (fun _ id hb => hb.modifyEntity id fun _ => rfl) (fun hshares hb => hb.of_sharesSkeleton hshares)
    hmerged h

end IsNamed

end Atlas

/-! ## Operations -/

namespace Operation

variable {a : Atlas}

/-- The operation is given numbers of namespaces as the atlas gives them out, and leaves using
relations alone if it amends an entity. -/
def RespectsUsing : Operation → Prop
  | amend _ amendment => ∀ e, (amendment.apply e).usage = e.usage
  | useNamespace id target => 0 < id.number ∧ 0 < target.number
  | closeUsing id => 0 < id.number
  | _ => True

/-- The step lemma: an operation keeps used namespaces under their names. -/
theorem isNamed_perform (operation : Operation) (h : operation.RespectsUsing) (ha : a.IsWired)
    (hnamed : a.IsNamed) : (operation.perform a).IsNamed := by
  cases operation with
  | register name kind location => exact hnamed.register name kind location
  | amend id amendment => exact hnamed.modifyEntity id h
  | setOuter inner outer => exact hnamed.setOuter inner outer
  | setFormals id formals =>
    refine outcome_kept hnamed fun b hb => ?_
    obtain ⟨c, -, hb⟩ := Except.bind_eq_ok hb
    cases hb
    exact hnamed.modifyClass _ _
  | addMember owner m => exact hnamed.of_sharesSkeleton (.addMember a owner m)
  | amendMember id change => exact hnamed.of_sharesSkeleton (.modifyMember a id change)
  | insertMember owner id =>
    exact outcome_kept hnamed fun filed hfiled => hnamed.of_sharesSkeleton (.insertMember hfiled)
  | insertBase child parent edge =>
    refine outcome_kept hnamed fun linked hlinked => ?_
    obtain ⟨c, -, hlinked⟩ := Except.bind_eq_ok hlinked
    obtain ⟨c', -, hlinked⟩ := Except.bind_eq_ok hlinked
    cases hlinked
    exact hnamed.linkBase _ _
  | instantiate template spec =>
    refine outcome_kept hnamed fun made hmade => ?_
    exact hnamed.instantiate ha (Atlas.holdsClass_of_instantiate template.2 hmade) hmade
  | instantiateVariable template spec =>
    exact outcome_kept hnamed fun made hmade => hnamed.instantiateVariable hmade
  | mergeMembers id =>
    refine outcome_kept hnamed fun merged hmerged => ?_
    obtain ⟨c, -, hmerged⟩ := Except.bind_eq_ok hmerged
    cases hmerged
    exact hnamed.of_sharesSkeleton (.mergeFrom a id)
  | mergeAll => exact hnamed.of_sharesSkeleton (.mergeAll a)
  | mergeCategory id category =>
    exact outcome_kept hnamed fun merged hmerged => hnamed.mergeCategory hmerged
  | useNamespace id target =>
    exact outcome_kept hnamed fun b hb => hnamed.useNamespace h.1 h.2 hb
  | useDeclaration id name target =>
    exact outcome_kept hnamed fun b hb => hnamed.useDeclaration hb
  | closeUsing id => exact outcome_kept hnamed fun b hb => hnamed.closeUsing h hb
  | closeAllUsing => exact hnamed.closeAllUsing

theorem hasSoundUsing_performAll (options : Options) {operations : List Operation}
    (h : ∀ operation ∈ operations, operation.RespectsUsing) :
    (performAll (.empty options) operations).HasSoundUsing := by
  have hempty : (Atlas.empty options).IsNamed :=
    ⟨nofun, nofun, nofun⟩
  have hall : (performAll (.empty options) operations).IsWired ∧
      (performAll (.empty options) operations).IsNamed := by
    refine List.foldlRecOn (motive := fun b : Atlas => b.IsWired ∧ b.IsNamed) _ _
      ⟨.empty options, hempty⟩ fun b hb operation hoperation => ?_
    have hchanges : Atlas.Changes false b (operation.perform b) :=
      operation.changes_perform hb.1 nofun
    exact ⟨hchanges.isWired hb.1,
      operation.isNamed_perform (h operation hoperation) hb.1 hb.2⟩
  exact hall.2.hasSoundUsing

end Operation

end SymbolAtlas
