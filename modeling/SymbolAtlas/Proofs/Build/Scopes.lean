import SymbolAtlas.Proofs.Build.Accounting
import SymbolAtlas.Proofs.Build.Sites

/-!
# Scopes and qualified names

The scopes around an entity are those that its name says. All of them are registered: the scopes that
nobody declares are added from the inside out, up to the first that exists, whose own scopes are added
on its behalf. Then each entity is put into the scope of its name, and from there on every step outward
is a step to the scope of the name.
-/

set_option autoImplicit false

namespace SymbolAtlas

variable (options : Options)

/-! ## Names -/

namespace QualifiedName

variable {name : String}

/-- The name of the scope that is reached in so many steps outward from a name. -/
def outward : Nat → String → Option String
  | 0, name => some name
  | n + 1, name => (outward n name).bind scope?

theorem length_of_scope? {scope : String} (h : scope? name = some scope) :
    scope.length + 2 ≤ name.length := by
  unfold scope? cutScope at h
  rw [Option.map_map] at h
  obtain ⟨⟨s, n⟩, hcut, rfl⟩ := Option.map_eq_some_iff.mp h
  have hlength := length_of_cutFrom hcut
  rw [String.length_toList] at hlength
  simp only [Function.comp_apply, String.length_ofList]
  omega

theorem outward_eq_none (name : String) : outward (name.length + 1) name = none := by
  have hshorter (n : Nat) : ∀ scope, outward n name = some scope →
      scope.length + 2 * n ≤ name.length := by
    induction n with
    | zero =>
      rintro scope ⟨⟩
      exact Nat.le_refl _
    | succ n ih =>
      intro scope h
      obtain ⟨inner, hinner, hscope⟩ := Option.bind_eq_some_iff.mp h
      have hinner := ih inner hinner
      have hlength := length_of_scope? hscope
      omega
  cases h : outward (name.length + 1) name with
  | none => rfl
  | some scope =>
    have hlength := hshorter _ scope h
    omega

theorem enclosing_of_none (h : scope? name = none) : enclosing name = [] := by
  unfold scope? cutScope at h
  rw [Option.map_map, Option.map_eq_none_iff] at h
  unfold enclosing enclosingFrom
  split
  · rfl
  · next hcut =>
    rw [h] at hcut
    cases hcut

theorem enclosing_of_some {scope : String} (h : scope? name = some scope) :
    enclosing name = scope :: enclosing scope := by
  unfold scope? cutScope at h
  rw [Option.map_map] at h
  obtain ⟨⟨s, n⟩, hcut, rfl⟩ := Option.map_eq_some_iff.mp h
  unfold enclosing
  rw [enclosingFrom]
  split
  · next hnone =>
    rw [hcut] at hnone
    cases hnone
  · next heq =>
    rw [hcut] at heq
    cases heq
    simp

/-- A name with a scope is the scope and the local name with a separator between them, and one without
is its own local name. A local name has no scope, and the scopes outward from a name come to an end. -/
theorem localName_and_scope? (name : String) :
    (∀ scope, scope? name = some scope → name = inScope scope (localName name)) ∧
    (scope? name = none → localName name = name) ∧
    scope? (localName name) = none ∧ localName (localName name) = localName name ∧
    ∃ steps, outward steps name = none := by
  have hnone {name : String} (h : cutFrom 0 name.toList = none) :
      scope? name = none ∧ localName name = name := by
    simp [scope?, localName, cutScope, h]
  cases hcut : cutFrom 0 name.toList with
  | none =>
    obtain ⟨hscope, hlocal⟩ := hnone hcut
    rw [hlocal]
    exact ⟨fun scope h => absurd (hscope.symm.trans h) (Option.some_ne_none scope).symm,
      fun _ => rfl, hscope, hlocal, _, outward_eq_none name⟩
  | some cut =>
    obtain ⟨scope, tail⟩ := cut
    obtain ⟨hjoin, htail⟩ := cutFrom_eq_some hcut
    have hscope : scope? name = some (String.ofList scope) := by simp [scope?, cutScope, hcut]
    have hlocal : localName name = String.ofList tail := by simp [localName, cutScope, hcut]
    have hwhole : cutFrom 0 (String.ofList tail).toList = none := by simpa using htail
    obtain ⟨hscope', hlocal'⟩ := hnone hwhole
    refine ⟨fun scope' h => ?_, fun h => ?_, hlocal ▸ hscope', hlocal ▸ hlocal', _,
      outward_eq_none name⟩
    · obtain rfl := Option.some.inj (hscope.symm.trans h)
      rw [hlocal, inScope, ← String.toList_inj, hjoin]
      simp
    · exact absurd (hscope.symm.trans h) (Option.some_ne_none _)

/-- Three colons are a separator and a colon, and a separator in brackets separates nothing. -/
theorem localName_and_scope?_colons :
    scope? "a:::Map<b::K>" = some "a" ∧ localName "a:::Map<b::K>" = ":Map<b::K>" ∧
      "a:::Map<b::K>" = inScope "a" ":Map<b::K>" ∧ scope? ":Map<b::K>" = none := by
  have hscope : scope? "a:::Map<b::K>" = some "a" := by decide +kernel
  have hlocal : localName "a:::Map<b::K>" = ":Map<b::K>" := by decide +kernel
  obtain ⟨hjoin, -, hnone, -⟩ := localName_and_scope? "a:::Map<b::K>"
  rw [hlocal] at hjoin hnone
  exact ⟨hscope, hlocal, hjoin "a" hscope, hnone⟩

/-- Where the scopes of a name are followed as long as a condition holds, the scope of each of them,
and of the name, is one more of them, or does not meet the condition. -/
theorem mem_takeWhile_enclosing (p : String → Bool) {inner scope : String}
    (hinner : inner ∈ name :: (enclosing name).takeWhile p) (hscope : scope? inner = some scope) :
    scope ∈ (enclosing name).takeWhile p ∨ p scope = false := by
  induction hlist : enclosing name generalizing name with
  | nil =>
    rw [hlist, List.takeWhile_nil, List.mem_singleton] at hinner
    rw [hinner] at hscope
    rw [enclosing_of_some hscope] at hlist
    cases hlist
  | cons outer rest ih =>
    have houter : scope? name = some outer ∧ enclosing outer = rest := by
      cases hname : scope? name with
      | none =>
        rw [enclosing_of_none hname] at hlist
        cases hlist
      | some s =>
        rw [enclosing_of_some hname] at hlist
        cases hlist
        exact ⟨rfl, rfl⟩
    rw [hlist] at hinner
    cases hp : p outer with
    | true =>
      rw [List.takeWhile_cons_of_pos hp] at hinner ⊢
      rcases List.mem_cons.mp hinner with rfl | hinner
      · rw [houter.1] at hscope
        cases hscope
        exact .inl List.mem_cons_self
      · rw [← houter.2] at hinner
        exact (ih hinner houter.2).imp (List.mem_cons_of_mem _) id
    | false =>
      rw [List.takeWhile_cons_of_neg (by simp [hp]), List.mem_singleton] at hinner
      rw [hinner, houter.1] at hscope
      cases hscope
      exact .inr hp

end QualifiedName

namespace Atlas

variable {a b : Atlas}
variable {admits : EntityKind → Prop} {id : EntityId} {ids : List EntityId}

/-! ## Entities that are in no scope -/

/-- All entities are found by their names, and none of them is in a scope. -/
structure IsLoose (a : Atlas) : Prop where
  names : ∀ id e, a.entity? id = some e → a.find? e.name = some (.ofSlot id.slot)
  seats : ∀ id e, a.entity? id = some e →
    e.seat = { outer := none, innerClasses := [], innerNamespaces := [] }

namespace IsLoose

theorem empty : (Atlas.empty options).IsLoose where
  names id e he := by simp [Atlas.empty, entity?] at he
  seats id e he := by simp [Atlas.empty, entity?] at he

theorem of_agrees (h : a.IsLoose) (hagrees : Agrees (fun e => (e.name, e.seat)) a b) :
    b.IsLoose := by
  constructor
  · intro id e he
    obtain ⟨e', he', hsame⟩ := hagrees.exists_before he
    rw [hagrees.find?_eq, ← (Prod.mk.inj hsame).1]
    exact h.names id e' he'
  · intro id e he
    obtain ⟨e', he', hsame⟩ := hagrees.exists_before he
    rw [← (Prod.mk.inj hsame).2]
    exact h.seats id e' he'

theorem register (h : a.IsLoose) (name : String) (kind : EntityKind) (location : Location) :
    (a.register name kind location).1.IsLoose := by
  cases hname : a.find? name with
  | some id =>
    rw [register_of_some hname]
    exact h
  | none =>
    have hread := entity?_register_of_none hname kind location
    have hfound := Build.find?_register a name kind location
    rw [register_snd_of_none hname] at hfound
    constructor
    · intro id e he
      rw [hread] at he
      rw [hfound]
      split at he
      · next hid =>
        cases he
        rw [hid]
        exact if_pos rfl
      · have hold := h.names id e he
        rw [if_neg, hold]
        rintro rfl
        rw [hname] at hold
        cases hold
    · intro id e he
      rw [hread] at he
      split at he
      · cases he
        rfl
      · exact h.seats id e he

end IsLoose

theorem IsUnlinked.isTemplateInstance_eq_false (h : a.IsUnlinked admits) {e : Entity}
    (he : a.entity? id = some e) : e.isTemplateInstance = false := by
  have hlineage := (h.entities id e he).lineage
  unfold Entity.isTemplateInstance Entity.templateMaster
  unfold Entity.lineage? at hlineage
  cases hc : e.class? with
  | none => rfl
  | some c =>
    have halone := hlineage c.lineage (by rw [hc]; rfl)
    have hmaster := congrArg Lineage.templateMaster halone
    exact congrArg Option.isSome hmaster

/-! ## Entities that are put into scopes -/

/-- A list in which a number is entered once. -/
def entered (id : EntityId) (ids : List EntityId) : List EntityId :=
  if ids.contains id then ids else ids ++ [id]

theorem mem_entered {x : EntityId} : x ∈ entered id ids ↔ x ∈ ids ∨ x = id := by
  unfold entered
  split
  · next hmem =>
    have hmem : id ∈ ids := by simpa using hmem
    constructor
    · exact .inl
    · rintro (hx | rfl)
      · exact hx
      · exact hmem
  · simp

theorem nodup_entered (h : ids.Nodup) : (entered id ids).Nodup := by
  unfold entered
  split
  · exact h
  · next hmem =>
    rw [← List.concat_eq_append]
    exact h.concat (by simpa using hmem)

theorem exists_entity_of_setOuter {inner outer : EntityId} (hne : inner ≠ outer) {i : Entity}
    (hinner : a.entity? inner = some i) (houter : (a.entity? outer).isSome = true) {e : Entity}
    (he : (a.setOuter inner outer).entity? id = some e) :
    ∃ e', a.entity? id = some e' ∧
      e.outer = (if inner.slot = id.slot then some outer else e'.outer) ∧
      e.innerClasses =
        (if outer.slot = id.slot ∧ i.isClass = true then entered inner e'.innerClasses
        else e'.innerClasses) ∧
      e.innerNamespaces =
        (if outer.slot = id.slot ∧ i.isClass = false then entered inner e'.innerNamespaces
        else e'.innerNamespaces) := by
  obtain ⟨o, houter⟩ := Option.isSome_iff_exists.mp houter
  unfold setOuter at he
  rw [if_neg hne, hinner, houter] at he
  rw [entity?_modifyEntity, entity?_modifyEntity] at he
  cases he' : a.entity? id with
  | none => simp [he'] at he
  | some e' =>
    rw [he'] at he
    by_cases hid : outer.slot = id.slot <;> by_cases hid' : inner.slot = id.slot <;>
      cases hclass : i.isClass <;>
      simp only [hid, hid', hclass, if_true, if_false, Option.map_some, Bool.false_eq_true] at he <;>
      cases he <;> simp [hid, hid', entered]

/-- The links of an entity in the list, and no others. -/
structure Seats (a : Atlas) (links : List (EntityId × EntityId)) (id : EntityId) (s : Seat) :
    Prop where
  outer : ∀ o, s.outer = some o ↔ (id, o) ∈ links
  innerClasses : s.innerClasses.Nodup ∧
    ∀ x, x ∈ s.innerClasses ↔ (x, id) ∈ links ∧ (a.entity? x).any (·.isClass) = true
  innerNamespaces : s.innerNamespaces.Nodup ∧
    ∀ x, x ∈ s.innerNamespaces ↔ (x, id) ∈ links ∧ (a.entity? x).any (·.isClass) = false

/-- The pairs in the list have been linked in `b`, and no others. -/
structure IsSeated (a b : Atlas) (links : List (EntityId × EntityId)) : Prop where
  isClass : Agrees Entity.isClass a b
  seats : ∀ id e, a.Holds id → b.entity? id = some e → a.Seats links id e.seat

namespace IsSeated

theorem start (h : a.IsLoose) : IsSeated a a [] where
  isClass := .refl _ a
  seats id e _ he := by
    rw [h.seats id e he]
    constructor <;> simp

variable {links : List (EntityId × EntityId)} {inner outer : EntityId}

theorem of_agrees {c : Atlas} (h : IsSeated a b links)
    (hagrees : Agrees (fun e => (e.isClass, e.seat)) b c) : IsSeated a c links := by
  refine ⟨h.isClass.trans (hagrees.map Prod.fst), fun id e hid he => ?_⟩
  obtain ⟨e', he', hsame⟩ := hagrees.exists_before he
  rw [← (Prod.mk.inj hsame).2]
  exact h.seats id e' hid he'

/-- An inner list of a scope after one more link, which may be to another scope or be for the other
list. -/
theorem inner_concat {admits : EntityId → Prop} {id : EntityId}
    (hids : ids.Nodup ∧ ∀ x, x ∈ ids ↔ (x, id) ∈ links ∧ admits x) {enters : Prop}
    [Decidable enters] (henters : enters ↔ outer = id ∧ admits inner) :
    let ids' := if enters then entered inner ids else ids
    ids'.Nodup ∧ ∀ x, x ∈ ids' ↔ (x, id) ∈ links ++ [(inner, outer)] ∧ admits x := by
  intro ids'
  by_cases h : enters
  · obtain ⟨rfl, hinner⟩ := henters.mp h
    have heq : ids' = entered inner ids := if_pos h
    rw [heq]
    refine ⟨nodup_entered hids.1, fun x => ?_⟩
    simp only [mem_entered, hids.2, List.mem_append, List.mem_singleton, Prod.mk.injEq, and_true]
    constructor
    · rintro (hx | rfl)
      · exact ⟨.inl hx.1, hx.2⟩
      · exact ⟨.inr rfl, hinner⟩
    · rintro ⟨hx | rfl, hadmits⟩
      · exact .inl ⟨hx, hadmits⟩
      · exact .inr rfl
  · have heq : ids' = ids := if_neg h
    rw [heq]
    refine ⟨hids.1, fun x => ?_⟩
    simp only [hids.2, List.mem_append, List.mem_singleton, Prod.mk.injEq]
    constructor
    · intro hx
      exact ⟨.inl hx.1, hx.2⟩
    · rintro ⟨hx | ⟨rfl, rfl⟩, hadmits⟩
      · exact ⟨hx, hadmits⟩
      · exact absurd (henters.mpr ⟨rfl, hadmits⟩) h

theorem setOuter (h : IsSeated a b links) (hinner : a.Holds inner) (houter : a.Holds outer)
    (hne : inner ≠ outer) (hunique : ∀ o, (inner, o) ∈ links → o = outer) :
    IsSeated a (b.setOuter inner outer) (links ++ [(inner, outer)]) := by
  have hthere {id : EntityId} (hid : a.Holds id) : ∃ e, b.entity? id = some e :=
    (hid.mono (Nat.le_of_eq h.isClass.size.symm)).exists_entity
  obtain ⟨i, hi⟩ := hthere hinner
  have hclass : (a.entity? inner).any (·.isClass) = i.isClass := by
    obtain ⟨e, he, heq⟩ := h.isClass.exists_before hi
    rw [he, Option.any_some, heq]
  have hslot {id id' : EntityId} (hid : a.Holds id) (hid' : a.Holds id') :
      id.slot = id'.slot ↔ id = id' :=
    ⟨EntityId.eq_of_slot hid.1 hid'.1, congrArg _⟩
  refine ⟨h.isClass.trans (agrees_setOuter (fun _ _ _ _ => rfl) b inner outer),
    fun id e hid he => ?_⟩
  obtain ⟨e', he', houters, hclasses, hnamespaces⟩ :=
    exists_entity_of_setOuter hne hi (Option.isSome_iff_exists.mpr (hthere houter)) he
  have hold := h.seats id e' hid he'
  constructor
  · intro o
    have hold : e'.outer = some o ↔ (id, o) ∈ links := hold.outer o
    simp only [Entity.seat, houters, hslot hinner hid, List.mem_append, List.mem_singleton,
      Prod.mk.injEq]
    by_cases heq : inner = id
    · subst heq
      simp only [if_true, Option.some.injEq, true_and]
      constructor
      · exact fun ho => .inr ho.symm
      · rintro (ho | ho)
        · exact (hunique o ho).symm
        · exact ho.symm
    · simp [heq, hold, Ne.symm heq]
  · rw [Entity.seat, hclasses]
    apply inner_concat hold.innerClasses
    rw [hslot houter hid, hclass]
  · rw [Entity.seat, hnamespaces]
    apply inner_concat hold.innerNamespaces
    rw [hslot houter hid, hclass]

theorem foldl {more : List (EntityId × EntityId)} (h : IsSeated a b links)
    (hheld : ∀ link ∈ more, a.Holds link.1 ∧ a.Holds link.2 ∧ link.1 ≠ link.2)
    (hunique : ∀ inner o o', (inner, o) ∈ links ++ more → (inner, o') ∈ links ++ more → o = o') :
    IsSeated a (more.foldl (fun b link => b.setOuter link.1 link.2) b) (links ++ more) := by
  induction more generalizing b links with
  | nil => simpa using h
  | cons link rest ih =>
    obtain ⟨hinner, houter, hne⟩ := hheld link List.mem_cons_self
    have hstep := h.setOuter hinner houter hne fun o ho =>
      hunique link.1 o link.2 (by simp [ho]) (by simp)
    have hassoc : links ++ link :: rest = links ++ [link] ++ rest := by simp
    rw [hassoc] at hunique ⊢
    exact ih hstep (fun l hl => hheld l (List.mem_cons_of_mem _ hl)) hunique

end IsSeated

/-- The scope of each entity, as its name says. -/
def scopeLinks (a : Atlas) : List (EntityId × EntityId) :=
  (a.entities.toList.filter fun e => !e.isTemplateInstance).filterMap fun e =>
    ((QualifiedName.scope? e.name).bind a.find?).map fun outer => (e.id, outer)

theorem IsSound.entity?_id (h : a.IsSound) {e : Entity} (he : e ∈ a.entities) :
    a.entity? e.id = some e := by
  obtain ⟨slot, hslot, rfl⟩ := Array.mem_iff_getElem.mp he
  rw [h.isNumbered slot hslot]
  exact Array.getElem?_eq_getElem hslot

theorem mem_scopeLinks (h : a.IsSound) (hunlinked : a.IsUnlinked admits) {inner outer : EntityId} :
    (inner, outer) ∈ a.scopeLinks ↔ 0 < inner.number ∧ ∃ e, a.entity? inner = some e ∧
      (QualifiedName.scope? e.name).bind a.find? = some outer := by
  unfold scopeLinks
  simp only [List.mem_filterMap, List.mem_filter, Array.mem_toList_iff, Option.map_eq_some_iff,
    Prod.mk.injEq]
  constructor
  · rintro ⟨e, ⟨he, -⟩, outer, hfind, rfl, rfl⟩
    exact ⟨(h.holds_id he).1, e, h.entity?_id he, hfind⟩
  · rintro ⟨hpos, e, he, hfind⟩
    refine ⟨e, ⟨?_, ?_⟩, outer, hfind, ?_, rfl⟩
    · exact Array.mem_of_getElem? he
    · simp [hunlinked.isTemplateInstance_eq_false he]
    · rw [h.entityIds inner e he]
      exact congrArg EntityId.mk (Nat.sub_add_cancel hpos)

/-! ## Entities in the scopes of their names -/

/-- Every entity is found by its name and is in the scope that its name says, once, and in no
other. -/
structure IsScoped (a : Atlas) : Prop where
  names : ∀ id e, a.Holds id → a.entity? id = some e → a.find? e.name = some id
  scopes : ∀ name scope, (a.find? name).isSome = true → QualifiedName.scope? name = some scope →
    (a.find? scope).isSome = true
  outer : ∀ id e, a.Holds id → a.entity? id = some e →
    e.outer = (QualifiedName.scope? e.name).bind a.find?
  inner : ∀ id e x f, a.Holds id → a.entity? id = some e → a.Holds x → a.entity? x = some f →
    e.innerClasses.count x = (if f.isClass = true ∧ f.outer = some id then 1 else 0) ∧
      e.innerNamespaces.count x = (if f.isNamespace = true ∧ f.outer = some id then 1 else 0)

/-- The entity that is reached in so many steps outward. -/
def outward (a : Atlas) : Nat → EntityId → Option EntityId
  | 0, id => some id
  | n + 1, id => (a.outward n id).bind fun id => (a.entity? id).bind (·.outer)

theorem rel_outward {R : String → EntityId → Prop}
    (hstep : ∀ name id, R name id → ∃ e, a.entity? id = some e ∧
      Option.Rel R (QualifiedName.scope? name) e.outer) {name : String} (h : R name id) (n : Nat) :
    Option.Rel R (QualifiedName.outward n name) (a.outward n id) := by
  induction n with
  | zero => exact .some h
  | succ n ih =>
    unfold QualifiedName.outward outward
    generalize QualifiedName.outward n name = scope?, a.outward n id = outer? at ih
    cases ih with
    | none => exact .none
    | some h =>
      obtain ⟨e, he, hrel⟩ := hstep _ _ h
      rw [Option.bind_some, Option.bind_some, he]
      exact hrel

theorem isScoped_of_isSeated (h : a.IsSound) (hunlinked : a.IsUnlinked admits) (hloose : a.IsLoose)
    (hscopes : ∀ name scope, (a.find? name).isSome = true → QualifiedName.scope? name = some scope →
      (a.find? scope).isSome = true) (hseated : a.IsSeated b a.scopeLinks)
    (hnames : Agrees Entity.name a b) : b.IsScoped := by
  have hsize := hseated.isClass.size
  have hheld {id : EntityId} (hid : b.Holds id) : a.Holds id := hid.mono (Nat.le_of_eq hsize)
  have hback {id : EntityId} {e : Entity} (he : b.entity? id = some e) :
      ∃ e', a.entity? id = some e' ∧ e'.name = e.name ∧ e'.isClass = e.isClass := by
    obtain ⟨e', he', hname⟩ := hnames.exists_before he
    obtain ⟨e'', he'', hclass⟩ := hseated.isClass.exists_before he
    obtain rfl := Option.some.inj (he'.symm.trans he'')
    exact ⟨e', he', hname, hclass⟩
  have hlinks {id o : EntityId} {e : Entity} (hid : b.Holds id) (he : b.entity? id = some e) :
      e.outer = some o ↔ (id, o) ∈ a.scopeLinks := (hseated.seats id e (hheld hid) he).outer o
  constructor
  · intro id e hid he
    obtain ⟨e', he', hname, -⟩ := hback he
    rw [hnames.find?_eq, ← hname, hloose.names id e' he']
    exact congrArg (fun n => some (EntityId.mk n)) (Nat.sub_add_cancel hid.1)
  · intro name scope hname hscope
    rw [hnames.find?_eq] at hname ⊢
    exact hscopes name scope hname hscope
  · intro id e hid he
    obtain ⟨e', he', hname, -⟩ := hback he
    have hfind : b.find? = a.find? := funext hnames.find?_eq
    apply Option.ext
    intro o
    rw [hlinks hid he, mem_scopeLinks h hunlinked, hfind, ← hname, he']
    simp [hid.1]
  · intro id e x f hid he hx hf
    obtain ⟨f', hf', -, hclass⟩ := hback hf
    obtain ⟨-, ⟨hnodup, hmem⟩, hnodup', hmem'⟩ := hseated.seats id e (hheld hid) he
    dsimp only [Entity.seat] at hnodup hmem hnodup' hmem'
    simp only [hnodup.count, hnodup'.count, hmem, hmem', ← hlinks hx hf, hf', Option.any_some, hclass,
      Entity.isNamespace_eq, and_comm, Bool.not_eq_true', and_self]

/-- `b` goes on from `a`, whose entities are all in the scopes of their names. -/
structure ExtendsScoped (a b : Atlas) : Prop where
  isScoped : a.IsScoped
  isUnlinked : a.IsUnlinked fun _ => True
  keeps : a.KeepsSites b
  isSound : b.IsSound

namespace ExtendsScoped

variable {id : EntityId} {e : Entity}

variable (h : a.ExtendsScoped b) (hid : a.Holds id) (he : b.entity? id = some e) (n : Nat)

include h hid he

theorem exists_before :
    ∃ e', a.entity? id = some e' ∧ e'.name = e.name ∧ e'.seat = e.seat ∧ e'.isClass = e.isClass := by
  obtain ⟨e', he'⟩ := hid.exists_entity
  obtain ⟨e'', he'', hsite⟩ := h.keeps.exists_entity he'
  obtain rfl := Option.some.inj (he.symm.trans he'')
  have hheading : e.heading = e'.heading := congrArg Prod.fst hsite
  refine ⟨e', he', (congrArg Heading.name hheading).symm, (congrArg Prod.snd hsite).symm, ?_⟩
  -- In both atlases it is the kind that makes a class.
  have hclass : e'.isClass = !e'.kind.isNamespaceLike := by
    rw [← (h.isUnlinked.entities id e' he').isClass]
    exact (Option.isSome_map ..).symm
  rw [hclass, (h.isSound.entities id e he).isClass]
  exact congrArg (fun k => !EntityKind.isNamespaceLike k) (congrArg Heading.kind hheading).symm

theorem outer_eq : e.outer = (QualifiedName.scope? e.name).bind a.find? := by
  obtain ⟨e', he', hname, hseat, -⟩ := h.exists_before hid he
  rw [← hname, ← h.isScoped.outer id e' hid he']
  exact (congrArg Seat.outer hseat).symm

theorem find?_eq : a.find? e.name = some id := by
  obtain ⟨e', he', hname, -, -⟩ := h.exists_before hid he
  rw [← hname]
  exact h.isScoped.names id e' hid he'

theorem count_inner {o : Entity} (ho : o ∈ b.entities) :
    o.innerClasses.count id = (if e.isClass = true ∧ e.outer = some o.id then 1 else 0) ∧
      o.innerNamespaces.count id =
        (if e.isNamespace = true ∧ e.outer = some o.id then 1 else 0) := by
  have hentity := h.isSound.entity?_id ho
  by_cases hheld : a.Holds o.id
  · obtain ⟨o', ho', -, hseat, -⟩ := h.exists_before hheld hentity
    obtain ⟨e', he', -, hseat', hclass⟩ := h.exists_before hid he
    have hcounts := h.isScoped.inner o.id o' id e' hheld ho' hid he'
    have hclasses : o'.innerClasses = o.innerClasses := congrArg Seat.innerClasses hseat
    have hnamespaces : o'.innerNamespaces = o.innerNamespaces :=
      congrArg Seat.innerNamespaces hseat
    have houter : e'.outer = e.outer := congrArg Seat.outer hseat'
    rw [Entity.isNamespace_eq] at hcounts ⊢
    rwa [hclasses, hnamespaces, houter, hclass] at hcounts
  · -- Nothing is inside an entity that was not there when the scopes were linked.
    have hslot : a.entities.size ≤ o.id.slot := by
      have hpos := (h.isSound.holds_id ho).1
      unfold Holds at hheld
      unfold EntityId.slot
      omega
    obtain ⟨hclasses, hnamespaces⟩ := h.keeps.leaves o.id o hslot hentity
    have houter : e.outer ≠ some o.id := by
      intro heq
      rw [h.outer_eq hid he] at heq
      obtain ⟨scope, -, hfind⟩ := Option.bind_eq_some_iff.mp heq
      exact hheld (h.isUnlinked.names scope o.id hfind)
    simp [hclasses, hnamespaces, houter]

theorem rel_outward :
    Option.Rel (fun name id => b.find? name = some id) (QualifiedName.outward n e.name)
      (b.outward n id) := by
  have hrel : Option.Rel (fun name id => a.find? name = some id) (QualifiedName.outward n e.name)
      (b.outward n id) := by
    apply Atlas.rel_outward _ (h.find?_eq hid he)
    intro name id hfind
    obtain ⟨-, e, he, rfl⟩ := h.isSound.names name id (h.keeps.names name id hfind)
    refine ⟨e, he, ?_⟩
    rw [h.outer_eq (h.isUnlinked.names _ id hfind) he]
    cases hscope : QualifiedName.scope? e.name with
    | none => exact .none
    | some scope =>
      have hthere := h.isScoped.scopes e.name scope (by simp [hfind]) hscope
      obtain ⟨outer, houter⟩ := Option.isSome_iff_exists.mp hthere
      rw [Option.bind_some, houter]
      exact .some houter
  generalize QualifiedName.outward n e.name = scope?, b.outward n id = outer? at hrel
  cases hrel with
  | none => exact .none
  | some hfind => exact .some (h.keeps.names _ _ hfind)

theorem outward_eq_none : b.outward (e.name.length + 1) id = none := by
  have hrel := h.rel_outward hid he (e.name.length + 1)
  rw [QualifiedName.outward_eq_none] at hrel
  generalize b.outward (e.name.length + 1) id = outer? at hrel
  cases hrel
  rfl

end ExtendsScoped

end Atlas

namespace Build

open Atlas

variable {progress : Progress} (d : Document)

/-! ## Registering entities and scopes -/

theorem isLoose_registerAll :
    (registerAll { atlas := .empty options } d).value.1.atlas.IsLoose := by
  refine Noted.foldlM_kept (P := fun state : Progress × List Declared => state.1.atlas.IsLoose)
    (fun state decl h => ?_) _ (.empty options)
  refine registerOne_kept (P := fun state => state.1.atlas.IsLoose) (fun kind p _ _ => ?_) h
  let registered := state.1.atlas.register decl.name kind decl.location
  have hregistered : registered.1.IsLoose := h.register _ _ _
  have hprotected := hregistered.of_agrees
    (.modifyEntity _ registered.2 (f := fun e => { e with protection := p }) fun e => rfl)
  exact hprotected.of_agrees
    ((agrees_site_registerAs state.1.atlas decl kind p).map fun site => (site.1.name, site.2))

theorem isLoose_addScopes (h : progress.atlas.IsLoose) : (addScopes progress).atlas.IsLoose := by
  refine addScopes_kept (P := fun p => p.atlas.IsLoose) (fun p scope hp => ?_) h
  exact (hp.register scope .namespaceKind {}).of_agrees (.modifyEntity _ _ fun e => rfl)

/-- The scopes are there of all names that are registered, but for those in the list. -/
def IsClosing (a : Atlas) (names : List String) : Prop :=
  ∀ name scope, (a.find? name).isSome = true → QualifiedName.scope? name = some scope →
    name ∈ names ∨ (a.find? scope).isSome = true

theorem isSome_find?_foldl_addScope (scopes : List String) (progress : Progress) (name : String) :
    ((scopes.foldl addScope progress).atlas.find? name).isSome = true ↔
      name ∈ scopes ∨ (progress.atlas.find? name).isSome = true := by
  induction scopes generalizing progress with
  | nil => simp
  | cons scope rest ih =>
    have hfound : (addScope progress scope).atlas.find? name = _ :=
      find?_register progress.atlas scope .namespaceKind {} name
    rw [List.foldl_cons, ih, hfound]
    by_cases heq : name = scope <;> simp [heq]

theorem IsClosing.addScopesOf {name : String} {names : List String}
    (h : IsClosing progress.atlas (name :: names)) :
    IsClosing (Build.addScopesOf progress name).atlas names := by
  intro inner scope hinner hscope
  unfold Build.addScopesOf at hinner ⊢
  rw [isSome_find?_foldl_addScope] at hinner ⊢
  -- The name and the scopes that were missing.
  have hadded (hinner : inner ∈ name :: (QualifiedName.enclosing name).takeWhile fun scope =>
      (progress.atlas.find? scope).isNone) := QualifiedName.mem_takeWhile_enclosing _ hinner hscope
  have hnew (hscope : (progress.atlas.find? scope).isNone = false) :
      (progress.atlas.find? scope).isSome = true := by simpa using hscope
  rcases hinner with hinner | hinner
  · exact .inr ((hadded (List.mem_cons_of_mem _ hinner)).imp id hnew)
  · rcases h inner scope hinner hscope with hmem | hfound
    · rcases List.mem_cons.mp hmem with rfl | hmem
      · exact .inr ((hadded List.mem_cons_self).imp id hnew)
      · exact .inl hmem
    · exact .inr (.inr hfound)

theorem isClosing_addScopes (h : progress.atlas.IsSound) :
    IsClosing (addScopes progress).atlas [] := by
  have hloop (names : List String) (p : Progress) (hp : IsClosing p.atlas names) :
      IsClosing (names.foldl addScopesOf p).atlas [] := by
    induction names generalizing p with
    | nil => exact hp
    | cons name rest ih => exact ih _ hp.addScopesOf
  apply hloop
  intro name scope hname hscope
  obtain ⟨id, hfind⟩ := Option.isSome_iff_exists.mp hname
  obtain ⟨-, e, he, rfl⟩ := h.names name id hfind
  left
  apply List.mem_map_of_mem
  simpa using Array.mem_of_getElem? he

/-! ## The whole build -/

/-- Every entity is linked into the scope that its name says. -/
theorem isSeated_linkScopes {admits : EntityKind → Prop} (h : progress.atlas.IsSound)
    (hunlinked : progress.atlas.IsUnlinked admits) (hloose : progress.atlas.IsLoose) :
    progress.atlas.IsSeated (linkScopes progress).atlas progress.atlas.scopeLinks := by
  -- Nothing is in its own scope, since the name of a scope is shorter.
  have hheld : ∀ link ∈ progress.atlas.scopeLinks,
      progress.atlas.Holds link.1 ∧ progress.atlas.Holds link.2 ∧ link.1 ≠ link.2 := by
    rintro ⟨inner, outer⟩ hlink
    obtain ⟨hpos, e, he, hfind⟩ := (mem_scopeLinks h hunlinked).mp hlink
    obtain ⟨scope, hscope, hfind⟩ := Option.bind_eq_some_iff.mp hfind
    refine ⟨holds_iff.mpr ⟨hpos, e, he⟩, h.holds_of_find? hfind, ?_⟩
    rintro (rfl : inner = outer)
    obtain ⟨-, e', he', hname⟩ := h.names scope _ hfind
    obtain rfl := Option.some.inj (he.symm.trans he')
    have hlength := QualifiedName.length_of_scope? hscope
    rw [hname] at hlength
    omega
  apply (IsSeated.start hloose).foldl hheld
  intro inner o o' ho ho'
  obtain ⟨-, e, he, hfind⟩ := (mem_scopeLinks h hunlinked).mp ho
  obtain ⟨-, e', he', hfind'⟩ := (mem_scopeLinks h hunlinked).mp ho'
  obtain rfl := Option.some.inj (he.symm.trans he')
  exact Option.some.inj (hfind.symm.trans hfind')

theorem isScoped_prepare : (prepare (.empty options) d).value.1.atlas.IsScoped := by
  have hregistering := isRegistering_registerAll options d
  have hloose := isLoose_addScopes (isLoose_registerAll options d)
  have hprepared : (prepare (.empty options) d).value.1 = (addMembers (linkScopes (addScopes
      (registerAll { atlas := .empty options } d).value.1))
      (registerAll { atlas := .empty options } d).value.2).value := rfl
  rw [hprepared]
  generalize (registerAll { atlas := .empty options } d).value = registered at *
  have hsound := (growsSoundly_addScopes hregistering.isSound).isSound
  have hunlinked := (hregistering.isRegistered.addScopes trivial).isUnlinked
  have hclosing := isClosing_addScopes hregistering.isSound
  have hmembers := sharesSkeleton_addMembers (linkScopes (addScopes registered.1)) registered.2
  refine isScoped_of_isSeated hsound hunlinked hloose (fun name scope hname hscope => ?_)
    ((isSeated_linkScopes hsound hunlinked hloose).of_agrees (hmembers.view fun e => ?_)) ?_
  · simpa using hclosing name scope hname hscope
  · unfold Entity.isClass Entity.class? Entity.skeleton
    cases e.body <;> rfl
  · exact (agrees_linkScopes (fun _ _ _ _ => rfl) _).trans (hmembers.view fun _ => rfl)

theorem isClass_of_size_le {id : EntityId} {e : Entity}
    (he : (run options d).value.1.entity? id = some e)
    (hid : (prepare (.empty options) d).value.1.atlas.entities.size ≤ id.slot) :
    e.isClass = true := by
  have hregistered : IsRegistered (fun _ => True) (prepare (.empty options) d).value.1
      (prepare (.empty options) d).value.2 :=
    isRegistered_prepare trivial options fun _ _ _ _ => trivial
  have hstubbed := hregistered.isLinking_foldlM.isStubbed
  obtain ⟨horiginals, -⟩ := originalStock_assemble options d
  obtain ⟨hsettles, -⟩ := settles_run options d
  have hfinal : (run options d).value.1.isOriginal id =
      (assemble (.empty options) d).value.originalStock.2 id := by
    exact (agrees_finish Entity.isTemplateInstance_modifyNamespace
      Entity.isTemplateInstance_skeleton _).isOriginal_eq id
  rw [horiginals] at hfinal
  generalize (prepare (.empty options) d).value = prepared at *
  generalize (prepared.2.foldlM addBasesOf (prepared.1, [])).value.1 = linked at *
  by_cases hlt : id.slot < linked.atlas.entities.size
  · obtain ⟨hl, -⟩ := hstubbed.stub id hid hlt
    obtain ⟨l, hl, -⟩ := hsettles.lineage id _ hl
    have hclass := any_isClass_eq (run options d).value.1 id
    rw [he, hl] at hclass
    exact hclass
  · have hnone : linked.atlas.entity? id = none := Array.getElem?_eq_none (Nat.not_lt.mp hlt)
    have hinstance : e.isTemplateInstance = true := by
      simpa [Progress.originalStock, isOriginal, he, hnone] using hfinal
    unfold Entity.isTemplateInstance Entity.templateMaster at hinstance
    unfold Entity.isClass
    cases hc : e.class? with
    | none => simp [hc] at hinstance
    | some c => rfl

theorem find?_of_declared (d : Document) {owner : Declared}
    (howner : owner ∈ (prepare (.empty options) d).value.2) :
    (prepare (.empty options) d).value.1.atlas.Holds owner.1 ∧
      (run options d).value.1.find? owner.2.name = some owner.1 := by
  obtain ⟨hheld, hname⟩ := (isRegistering_prepare options d).2 owner howner
  obtain ⟨e, he⟩ := hheld.exists_entity
  have hfind := (isScoped_prepare options d).names owner.1 e hheld he
  rw [Atlas.name, he, Option.map_some, Option.getD_some] at hname
  rw [hname] at hfind
  exact ⟨hheld, (keepsSites_run options d).names _ _ hfind⟩

theorem holds_of_named (options : Options) (d : Document) {e : Entity}
    (he : e ∈ (run options d).value.1.entities)
    (hnamed : e.isNamespace = true ∨ ∃ decl ∈ d.entities, decl.isUnderstood = true ∧
      (run options d).value.1.find? decl.name = some e.id) :
    (prepare (.empty options) d).value.1.atlas.Holds e.id := by
  have hsound := isSound_run options d
  have hentity := hsound.entity?_id he
  rcases hnamed with hnamespace | ⟨decl, hdecl, hunderstood, hfind⟩
  · have hpos := (hsound.holds_id he).1
    refine ⟨hpos, ?_⟩
    by_contra hlt
    have hclass := isClass_of_size_le options d hentity (by unfold EntityId.slot; omega)
    simp [Entity.isNamespace_eq, hclass] at hnamespace
  · have hmem : decl ∈ d.entities.filter (·.isUnderstood) :=
      List.mem_filter.mpr ⟨hdecl, hunderstood⟩
    rw [← declared_registerAll { atlas := .empty options } d] at hmem
    obtain ⟨owner, howner, rfl⟩ := List.mem_map.mp hmem
    obtain ⟨hheld, hsame⟩ := find?_of_declared options d howner
    rw [hfind] at hsame
    rw [Option.some.inj hsame]
    exact hheld

/-- In the atlas that a build ends with, scopes mirror qualified names, for every entity that is
declared and for every namespace. The scope that the name of such an entity says is registered, and
is the one that the entity is in; the entity is listed there once, among the classes or among the
namespaces, and in no other scope. The entities that are met on the way outward are those that are
registered for the scopes of the name, one by one, and the way ends. -/
theorem scopes_of_named (options : Options) (d : Document) :
    let a := (run options d).value.1
    ∀ e ∈ a.entities, (e.isNamespace = true ∨
        ∃ decl ∈ d.entities, decl.isUnderstood = true ∧ a.find? decl.name = some e.id) →
      (∀ scope, QualifiedName.scope? e.name = some scope →
        ∃ outer, a.find? scope = some outer ∧ e.outer = some outer) ∧
      (QualifiedName.scope? e.name = none → e.outer = none) ∧
      (∀ o ∈ a.entities,
        o.innerClasses.count e.id = (if e.isClass = true ∧ e.outer = some o.id then 1 else 0) ∧
        o.innerNamespaces.count e.id =
          (if e.isNamespace = true ∧ e.outer = some o.id then 1 else 0)) ∧
      (∀ n, Option.Rel (fun name id => a.find? name = some id)
        (QualifiedName.outward n e.name) (a.outward n e.id)) ∧
      ∃ n, a.outward n e.id = none := by
  intro a e he hnamed
  let prepared := (prepare (.empty options) d).value
  have h : prepared.1.atlas.ExtendsScoped a :=
    { isScoped := isScoped_prepare options d
      isUnlinked := (isRegistered_prepare trivial options fun _ _ _ _ => trivial).isUnlinked
      keeps := keepsSites_run options d
      isSound := isSound_run options d }
  have hentity := h.isSound.entity?_id he
  have hid := holds_of_named options d he hnamed
  refine ⟨fun scope hscope => ?_, fun hscope => ?_, fun o ho => h.count_inner hid hentity ho,
    h.rel_outward hid hentity, e.name.length + 1, h.outward_eq_none hid hentity⟩
  · have hthere := h.isScoped.scopes e.name scope (by simp [h.find?_eq hid hentity]) hscope
    obtain ⟨outer, houter⟩ := Option.isSome_iff_exists.mp hthere
    refine ⟨outer, h.keeps.names scope outer houter, ?_⟩
    rw [h.outer_eq hid hentity, hscope, Option.bind_some, houter]
  · rw [h.outer_eq hid hentity, hscope, Option.bind_none]

/-- A class inside an instance of a template, whose arguments have separators of their own, in a scope
that nobody declares; and a class that begins with a separator. -/
def nested : Document where
  entities :=
    [{ name := "lib::Map<std::string, int>::Node", kind := "class" },
     { name := "lib::Map<std::string, int>::Node::Link", kind := "struct" },
     { name := "::Free", kind := "class" }]

/-- The separators of the template arguments do not count. -/
theorem scopes_of_named_nested :
    let a := (run {} nested).value.1
    ∃ e ∈ a.entities, e.id = ⟨2⟩ ∧ e.name = "lib::Map<std::string, int>::Node::Link" ∧
      (∃ decl ∈ nested.entities, decl.isUnderstood = true ∧ a.find? decl.name = some e.id) ∧
      (∃ outer, a.find? "lib::Map<std::string, int>::Node" = some outer ∧ e.outer = some outer) ∧
      Option.Rel (fun name id => a.find? name = some id) (some "lib") (a.outward 3 e.id) ∧
      ∃ n, a.outward n e.id = none := by
  have hread : ((run {} nested).value.1.entities[1]?).map (fun e => (e.id, e.name)) =
        some (⟨2⟩, "lib::Map<std::string, int>::Node::Link") ∧
      ∃ decl ∈ nested.entities, decl.isUnderstood = true ∧
        (run {} nested).value.1.find? decl.name = some ⟨2⟩ := by
    decide +kernel
  obtain ⟨e, he, hsame⟩ := Option.map_eq_some_iff.mp hread.1
  obtain ⟨hid, hname⟩ := Prod.mk.inj hsame
  have hdeclared := hread.2
  rw [← hid] at hdeclared
  have hmem := Array.mem_of_getElem? he
  obtain ⟨hscope, -, -, hway, hend⟩ := scopes_of_named {} nested e hmem (.inr hdeclared)
  have houter := hscope "lib::Map<std::string, int>::Node" (by rw [hname]; decide +kernel)
  have hlib : QualifiedName.outward 3 e.name = some "lib" := by
    rw [hname]
    decide +kernel
  have hthird := hway 3
  rw [hlib] at hthird
  exact ⟨e, hmem, hid, hname, hdeclared, houter, hthird, hend⟩

end Build

end SymbolAtlas
