import Mathlib.Data.List.Forall2
import SymbolAtlas.Proofs.Atlas.Growth

/-!
# Instances and their templates

An instance gets the bases that its template has at the time. Each of its edges is one of the template
with the arguments filled in, and leads where that leads or to an instance of it. What is added to the
template later is missing in the instance.
-/

set_option autoImplicit false

namespace SymbolAtlas

/-! ## Nesting within the bound -/

namespace Noted

variable {α β : Type}

/-- No nesting of instances was given up. -/
def IsShallow (x : Noted α) : Prop :=
  ∀ name, .instantiationTooDeep name ∉ x.notices

theorem isShallow_bind {x : Noted α} {f : α → Noted β} :
    (x >>= f).IsShallow ↔ x.IsShallow ∧ (f x.value).IsShallow := by
  simp only [IsShallow, notices_bind, List.mem_append, not_or, forall_and]

theorem IsShallow.foldlM {P : β → Prop} {f : β → α → Noted β} {xs : List α}
    (hf : ∀ x b, x ∈ xs → P b → (f b x).IsShallow → P (f b x).value)
    {b : β} (h : (xs.foldlM f b).IsShallow) (hb : P b) : P (xs.foldlM f b).value := by
  induction xs generalizing b with
  | nil => exact hb
  | cons x xs ih =>
    obtain ⟨hstep, hrest⟩ := isShallow_bind.mp h
    exact ih (fun x b hx => hf x b (List.mem_cons_of_mem _ hx)) hrest
      (hf x b List.mem_cons_self hb hstep)

end Noted

namespace Atlas

/-! ## Instances -/

/-- The instance of a template with arguments in canonical spacing. -/
def IsInstance (a : Atlas) (generic : EntityId) (key : String) (id : EntityId) : Prop :=
  ∃ c, a.class? generic = some c ∧ c.instances.get? key = some id

/-- An edge of an instance that was made from one of its template. -/
structure Instantiates (a : Atlas) (i : Instantiation) (edge made : BaseEdge) : Prop where
  usedName : made.usedName = edge.usedName
  protection : made.protection = edge.protection
  virtualness : made.virtualness = edge.virtualness
  templateSpec : made.templateSpec = i.apply edge.templateSpec
  target : made.target = edge.target ∨
    a.IsInstance edge.target (Text.normalized made.templateSpec) made.target

/-- The bases of an instance are made from the first ones of its template. The others lead to
instances. -/
def Mirrors (a : Atlas) (generic : EntityId) (key : String) (id : EntityId) : Prop :=
  ∃ first later, a.bases generic = first ++ later ∧
    List.Forall₂ (a.Instantiates (a.instantiation generic key)) first (a.bases id) ∧
    ∀ edge ∈ later, ∃ generic' key', a.IsInstance generic' key' edge.target

theorem isInstance_iff {a : Atlas} {generic : EntityId} {key : String} {id : EntityId} :
    a.IsInstance generic key id ↔
      ∃ l, a.lineage? generic = some l ∧ l.instances.get? key = some id := by
  rw [lineage?_eq_map]
  constructor
  · rintro ⟨c, hc, hget⟩
    exact ⟨c.lineage, by rw [hc]; rfl, hget⟩
  · rintro ⟨l, hl, hget⟩
    obtain ⟨c, hc, rfl⟩ := Option.map_eq_some_iff.mp hl
    exact ⟨c, hc, hget⟩

theorem instantiation_eq (a : Atlas) (generic : EntityId) (spec : String) :
    a.instantiation generic spec =
      ⟨((a.lineage? generic).map (·.formals)).getD [],
        (Signature.readTemplateArguments spec).arguments⟩ := by
  rw [lineage?_eq_map, Option.map_map]
  rfl

section Mono

variable {a b : Atlas} {generic id : EntityId} {key : String}

theorem Instantiates.mono {i : Instantiation} {edge made : BaseEdge} (h : a.Instantiates i edge made)
    (hinstances : ∀ generic key id, a.IsInstance generic key id → b.IsInstance generic key id) :
    b.Instantiates i edge made where
  usedName := h.usedName
  protection := h.protection
  virtualness := h.virtualness
  templateSpec := h.templateSpec
  target := h.target.imp_right fun hinstance => hinstances _ _ _ hinstance

theorem Mirrors.mono (h : a.Mirrors generic key id)
    (hinstances : ∀ generic key id, a.IsInstance generic key id → b.IsInstance generic key id)
    (hformals : b.instantiation generic key = a.instantiation generic key) (more : List BaseEdge)
    (hgeneric : b.bases generic = a.bases generic ++ more)
    (hmore : ∀ edge ∈ more, ∃ generic' key', b.IsInstance generic' key' edge.target)
    (hbases : b.bases id = a.bases id) : b.Mirrors generic key id := by
  obtain ⟨first, later, heq, hmade, hlater⟩ := h
  refine ⟨first, later ++ more, ?_, ?_, fun edge hedge => ?_⟩
  · rw [hgeneric, heq, List.append_assoc]
  · rw [hbases, hformals]
    exact hmade.imp fun edge made hmade => hmade.mono hinstances
  · rcases List.mem_append.mp hedge with hedge | hedge
    · obtain ⟨generic', key', hinstance⟩ := hlater edge hedge
      exact ⟨generic', key', hinstances _ _ _ hinstance⟩
    · exact hmore edge hedge

theorem Spawns.isInstance (h : Spawns a b) (hinstance : a.IsInstance generic key id) :
    b.IsInstance generic key id := by
  obtain ⟨l, hl, hget⟩ := isInstance_iff.mp hinstance
  obtain ⟨l', hl', hlists⟩ := h.exists_lineage hl
  exact isInstance_iff.mpr ⟨l', hl', hlists.instances key id hget⟩

theorem Spawns.bases_eq (h : Spawns a b) (hid : id.slot < a.entities.size) :
    b.bases id = a.bases id := by
  have hrel := h.lineage id hid
  rw [bases_eq_lineage?, bases_eq_lineage?]
  generalize a.lineage? id = l at hrel
  generalize b.lineage? id = l' at hrel
  cases hrel with
  | none => rfl
  | some hlists => exact hlists.bases

theorem Spawns.instantiation_eq (h : Spawns a b) {l : Lineage} (hl : a.lineage? generic = some l)
    (spec : String) : b.instantiation generic spec = a.instantiation generic spec := by
  obtain ⟨l', hl', hlists⟩ := h.exists_lineage hl
  rw [Atlas.instantiation_eq, Atlas.instantiation_eq, hl, hl', Option.map_some, Option.map_some,
    hlists.formals]

theorem isInstance_linkBase (a : Atlas) (child : EntityId) (edge : BaseEdge) (generic : EntityId)
    (key : String) (id : EntityId) :
    (a.linkBase child edge).value.IsInstance generic key id ↔ a.IsInstance generic key id := by
  rw [isInstance_iff, isInstance_iff, lineage?_linkBase_eq_map]
  cases a.lineage? generic with
  | none => simp
  | some l => simp

/-- An instance mirrors its template as before when another class gets a base, or when the template
gets an instance as a base. -/
theorem Mirrors.linkBase (h : a.Mirrors generic key id) {child : EntityId} {edge : BaseEdge}
    (hne : edge.target ≠ child) (hid : id.slot ≠ child.slot)
    (hgeneric : generic.slot = child.slot →
      ∃ generic' key', a.IsInstance generic' key' edge.target) :
    (a.linkBase child edge).value.Mirrors generic key id := by
  have hinstances (generic key id) := (a.isInstance_linkBase child edge generic key id).mpr
  have hbases := a.bases_linkBase hne
  have hformals : (a.linkBase child edge).value.instantiation generic key =
      a.instantiation generic key := by
    rw [Atlas.instantiation_eq, lineage?_linkBase_eq_map, Atlas.instantiation_eq, Option.map_map]
    rfl
  have hown : (a.linkBase child edge).value.bases id = a.bases id := by
    rw [hbases, if_neg fun hboth => hid hboth.2.symm]
  by_cases hparent : (a.lineage? generic).isSome = true ∧ child.slot = generic.slot
  · refine h.mono hinstances hformals [edge] ?_ ?_ hown
    · rw [hbases, if_pos hparent]
    · intro edge' hedge'
      rw [List.mem_singleton.mp hedge']
      obtain ⟨generic', key', htarget⟩ := hgeneric hparent.2.symm
      exact ⟨generic', key', hinstances _ _ _ htarget⟩
  · refine h.mono hinstances hformals [] ?_ (by simp) hown
    rw [hbases, if_neg hparent, List.append_nil]

end Mono

section AddInstance

variable {a : Atlas} {generic : EntityId} {master : Entity} {l : Lineage} (key : String)

variable (hl : a.lineage? generic = some l) (hkind : master.kind.isNamespaceLike = false)
  (id : EntityId)

include hl hkind

theorem lineage?_addInstance :
    (a.addInstance generic master key).value.1.lineage? id =
      if id.slot = a.entities.size then some { Lineage.alone with templateMaster := some generic }
      else if generic.slot = id.slot then
        some { l with instances := l.instances.insert key (.ofSlot a.entities.size) }
      else a.lineage? id := by
  rw [(a.agrees_addInstance generic master key).kin.lineage?_eq,
    a.lineage?_withInstance master key (slot_lt_of_lineage? hl), hkind]
  split
  · rfl
  · split
    · next hslot =>
      rw [← a.lineage?_eq_of_slot hslot, hl]
      rfl
    · rfl

theorem isInstance_addInstance :
    (a.addInstance generic master key).value.1.IsInstance generic key
      (.ofSlot a.entities.size) := by
  have hslot := slot_lt_of_lineage? hl
  rw [isInstance_iff, lineage?_addInstance key hl hkind, if_neg (Nat.ne_of_lt hslot), if_pos rfl]
  refine ⟨_, rfl, ?_⟩
  rw [Dict.get?_insert, if_pos rfl]

theorem bases_addInstance : (a.addInstance generic master key).value.1.bases id = a.bases id := by
  rw [bases_eq_lineage?, lineage?_addInstance key hl hkind, bases_eq_lineage?]
  split
  · next hid =>
    rw [lineage?, entity?, Array.getElem?_eq_none (Nat.le_of_eq hid.symm)]
    rfl
  · split
    · next hslot =>
      rw [← a.lineage?_eq_of_slot hslot, hl]
      rfl
    · rfl

end AddInstance

/-! ## Templates -/

theorem isNamespaceLike_eq_false_of_kinds {a : Atlas}
    (hkinds : ∀ id s, a.standing? id = some s → (a.lineage? id).isSome = !s.kind.isNamespaceLike)
    {id : EntityId} {e : Entity} {l : Lineage} (he : a.entity? id = some e)
    (hl : a.lineage? id = some l) : e.kind.isNamespaceLike = false := by
  have hread := hkinds id e.standing (by rw [standing?, he]; rfl)
  rw [hl] at hread
  simpa [Entity.standing] using hread.symm

theorem instanceWith_cases {a : Atlas} {l : Lineage} {template : EntityId}
    (hl : a.lineage? template = some l) (hnone : l.templateMaster = none)
    (finish : Atlas → (instanceId generic : EntityId) → String → Noted Atlas) (spec : String) :
    (∃ id, l.instances.get? (Text.normalized spec) = some id ∧
      instanceWith finish a template spec = pure (a, id, false)) ∨
    l.instances.get? (Text.normalized spec) = none ∧
      ∃ master, a.entity? template = some master ∧ instanceWith finish a template spec =
        (a.addInstance template master (Text.normalized spec) >>= fun added =>
          finish added.1 added.2 template (Text.normalized spec) >>= fun b =>
            pure (b, added.2, true)) := by
  have hgeneric : a.genericOf template = template := by
    rw [genericOf_eq_lineage?, hl, Option.bind_some, hnone, Option.getD_none]
  obtain ⟨c, hc, rfl⟩ := Option.map_eq_some_iff.mp ((a.lineage?_eq_map template).symm.trans hl)
  obtain ⟨master, hmaster, -⟩ := (a.class?_eq_some_iff template c).mp hc
  unfold instanceWith
  dsimp only
  rw [hgeneric, hc, hmaster, Option.bind_some]
  cases hget : c.instances.get? (Text.normalized spec) with
  | some id => exact .inl ⟨id, hget, rfl⟩
  | none => exact .inr ⟨hget, master, rfl, rfl⟩

end Atlas

end SymbolAtlas
