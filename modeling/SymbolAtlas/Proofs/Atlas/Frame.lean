import SymbolAtlas.Atlas.Inheritance
import SymbolAtlas.Atlas.Resolution

/-!
# Reading an atlas after a change

Changing one entity leaves every other one as it is, and the members, names and options with them.
An operation with notices is followed by its result alone.
-/

set_option autoImplicit false

namespace SymbolAtlas

variable {α β : Type}

theorem Except.bind_eq_ok {ε α β : Type} {x : Except ε α} {f : α → Except ε β} {b : β}
    (h : x >>= f = .ok b) : ∃ v, x = .ok v ∧ f v = .ok b := by
  cases x with
  | error e => cases h
  | ok v => exact ⟨v, rfl, h⟩

theorem foldl_kept {P : β → Prop} {f : β → α → β} (hf : ∀ b x, P b → P (f b x)) (xs : List α)
    {b : β} (hb : P b) : P (xs.foldl f b) := by
  induction xs generalizing b with
  | nil => exact hb
  | cons x xs ih => exact ih (hf b x hb)

/-- One property holds of a later state, and another one of all numbers that it held of before. -/
structure Carries {σ : Type} (P : σ → Prop) (Q : σ → EntityId → Prop) (s s' : σ) : Prop where
  holds : P s'
  mono : ∀ {id}, Q s id → Q s' id

theorem Carries.refl {σ : Type} {P : σ → Prop} {Q : σ → EntityId → Prop} {s : σ} (h : P s) :
    Carries P Q s s :=
  ⟨h, fun hid => hid⟩

theorem Carries.trans {σ : Type} {P : σ → Prop} {Q : σ → EntityId → Prop} {s s' s'' : σ}
    (h : Carries P Q s s') (h' : Carries P Q s' s'') : Carries P Q s s'' :=
  ⟨h'.holds, fun hid => h'.mono (h.mono hid)⟩

theorem EntityId.eq_of_slot {id id' : EntityId} (hid : 0 < id.number) (hid' : 0 < id'.number)
    (h : id.slot = id'.slot) : id = id' := by
  obtain ⟨n'⟩ := id'
  unfold slot at h
  rw [EntityId.mk.injEq]
  dsimp only at hid hid' h
  omega

namespace Noted

@[simp] theorem value_foldlM (f : β → α → Noted β) (xs : List α) (b : β) :
    (xs.foldlM f b).value = xs.foldl (fun b x => (f b x).value) b := by
  induction xs generalizing b with
  | nil => rfl
  | cons x xs ih =>
    rw [List.foldlM_cons, value_bind, ih, List.foldl_cons]

theorem foldlM_kept {P : β → Prop} {f : β → α → Noted β} (hf : ∀ b x, P b → P (f b x).value)
    (xs : List α) {b : β} (hb : P b) : P (xs.foldlM f b).value := by
  rw [value_foldlM]
  exact foldl_kept hf xs hb

@[simp] theorem value_map (f : α → β) (x : Noted α) : (f <$> x).value = f x.value :=
  rfl

end Noted

namespace Entity

variable (e : Entity) (f : NamespaceBody → NamespaceBody)

@[simp] theorem class?_modifyClass (f : ClassBody → ClassBody) :
    (e.modifyClass f).class? = e.class?.map f := by
  unfold modifyClass class?
  cases h : e.body <;> simp [h]

theorem map_class?_modifyClass {v : ClassBody → β} {f : ClassBody → ClassBody} {g : β → β}
    (hf : ∀ c, v (f c) = g (v c)) :
    (e.modifyClass f).class?.map v = (e.class?.map v).map g := by
  rw [class?_modifyClass, Option.map_map, Option.map_map]
  congr 1
  funext c
  exact hf c

@[simp] theorem namespace?_modifyClass (f : ClassBody → ClassBody) :
    (e.modifyClass f).namespace? = e.namespace? := by
  unfold modifyClass namespace?
  cases h : e.body <;> simp [h]

@[simp] theorem class?_modifyNamespace : (e.modifyNamespace f).class? = e.class? := by
  unfold modifyNamespace class?
  cases h : e.body <;> simp [h]

@[simp] theorem namespace?_modifyNamespace :
    (e.modifyNamespace f).namespace? = e.namespace?.map f := by
  unfold modifyNamespace namespace?
  cases h : e.body <;> simp [h]

theorem modifyClass_modifyClass (f g : ClassBody → ClassBody) :
    (e.modifyClass f).modifyClass g = e.modifyClass fun c => g (f c) := by
  unfold modifyClass
  cases h : e.body <;> simp [h]

end Entity

namespace Atlas

variable {id : EntityId}

section

variable (a : Atlas) (id id' : EntityId) (f : Entity → Entity)

theorem entity?_modifyEntity :
    (a.modifyEntity id f).entity? id' =
      if id.slot = id'.slot then (a.entity? id').map f else a.entity? id' := by
  simp only [entity?, modifyEntity, Array.getElem?_modify]

@[simp] theorem size_modifyEntity : (a.modifyEntity id f).entities.size = a.entities.size := by
  simp [modifyEntity]

theorem modifyEntity_modifyEntity (g : Entity → Entity) :
    (a.modifyEntity id f).modifyEntity id g = a.modifyEntity id (fun e => g (f e)) := by
  have hentities : (a.entities.modify id.slot f).modify id.slot g =
      a.entities.modify id.slot (fun e => g (f e)) := by
    apply Array.ext_getElem?
    intro i
    simp only [Array.getElem?_modify]
    split
    · rw [Option.map_map]
      rfl
    · rfl
  simp only [modifyEntity, hentities]

theorem modifyEntity_congr {f g : Entity → Entity} (h : ∀ e, a.entity? id = some e → f e = g e) :
    a.modifyEntity id f = a.modifyEntity id g := by
  have hentities : a.entities.modify id.slot f = a.entities.modify id.slot g := by
    apply Array.ext_getElem?
    intro i
    simp only [Array.getElem?_modify]
    split
    · next hi =>
      subst hi
      cases he : a.entities[id.slot]? with
      | none => rfl
      | some e => rw [Option.map_some, Option.map_some, h e he]
    · rfl
  simp only [modifyEntity, hentities]

theorem modifyEntity_eq_self {f : Entity → Entity} (h : ∀ e, a.entity? id = some e → f e = e) :
    a.modifyEntity id f = a := by
  have hentities : a.entities.modify id.slot (fun e => e) = a.entities := by
    apply Array.ext_getElem?
    intro i
    simp only [Array.getElem?_modify, Option.map_id', ite_self]
  rw [a.modifyEntity_congr id h]
  simp only [modifyEntity, hentities]

end

section Views

variable {γ : Type} {view : Entity → β} {a b : Atlas}

section

variable (a : Atlas) (id id' : EntityId)

theorem map_modifyEntity_congr {f g : Entity → Entity} (hfg : ∀ e, view (f e) = view (g e)) :
    (a.modifyEntity id f).entities.map view = (a.modifyEntity id g).entities.map view := by
  apply Array.ext_getElem?
  intro i
  simp only [modifyEntity, Array.getElem?_map, Array.getElem?_modify]
  split
  · rw [Option.map_map, Option.map_map]
    congr 1
    funext e
    exact hfg e
  · rfl

theorem map_modifyEntity {f : Entity → Entity} (hf : ∀ e, view (f e) = view e) :
    (a.modifyEntity id f).entities.map view = a.entities.map view := by
  rw [a.map_modifyEntity_congr id (g := fun e => e) hf, a.modifyEntity_eq_self id fun _ _ => rfl]

/-- What is read of an atlas in which one entity was changed. -/
theorem read_modifyEntity {f : Entity → Entity} {r : Option Entity → γ} {g : γ → γ}
    (hnone : r none = g (r none)) (hf : ∀ e, r (some (f e)) = g (r (some e))) :
    r ((a.modifyEntity id f).entity? id') =
      if id.slot = id'.slot then g (r (a.entity? id')) else r (a.entity? id') := by
  rw [entity?_modifyEntity]
  split
  · cases a.entity? id' with
    | none => exact hnone
    | some e => exact hf e
  · rfl

theorem read_modifyEntity_eq {f : Entity → Entity} {r : Option Entity → γ}
    (hf : ∀ e, r (some (f e)) = r (some e)) :
    r ((a.modifyEntity id f).entity? id') = r (a.entity? id') := by
  rw [a.read_modifyEntity id id' (g := fun x => x) rfl hf, ite_self]

end

theorem size_of_map_eq (h : b.entities.map view = a.entities.map view) :
    b.entities.size = a.entities.size := by
  have hsize := congrArg Array.size h
  rwa [Array.size_map, Array.size_map] at hsize

/-- What is read through a view depends on the view of the entities only. -/
theorem read_of_map_eq (h : b.entities.map view = a.entities.map view) {f : Option Entity → γ}
    (hf : ∀ e e', view e = view e' → f (some e) = f (some e')) (id : EntityId) :
    f (b.entity? id) = f (a.entity? id) := by
  have hget : (b.entity? id).map view = (a.entity? id).map view := by
    simpa only [Array.getElem?_map, entity?] using congrArg (fun entities => entities[id.slot]?) h
  cases hb : b.entity? id with
  | none =>
    rw [hb] at hget
    rw [Option.map_eq_none_iff.mp hget.symm]
  | some e =>
    rw [hb] at hget
    obtain ⟨e', he', hsame⟩ := Option.map_eq_some_iff.mp hget.symm
    rw [he']
    exact hf e e' hsame.symm

end Views

theorem entity?_eq_of_slot (a : Atlas) {id' : EntityId} (h : id.slot = id'.slot) :
    a.entity? id = a.entity? id' := by
  unfold entity?
  rw [h]

theorem bases_eq_of_slot (a : Atlas) {id' : EntityId} (h : id.slot = id'.slot) :
    a.bases id = a.bases id' := by
  unfold bases class?
  rw [a.entity?_eq_of_slot h]

theorem class?_eq_some_iff (a : Atlas) (id : EntityId) (c : ClassBody) :
    a.class? id = some c ↔ ∃ e, a.entity? id = some e ∧ e.class? = some c := by
  simp only [class?, Option.bind_eq_some_iff]

theorem entity?_of_requireEntity {a : Atlas} {e : Entity} (h : a.requireEntity id = .ok e) :
    a.entity? id = some e := by
  unfold requireEntity at h
  split at h
  · next hfound => exact Except.ok.inj h ▸ hfound
  · cases h

theorem class?_of_requireClass {a : Atlas} {c : ClassBody} (h : a.requireClass id = .ok c) :
    a.class? id = some c := by
  unfold requireClass at h
  rw [class?_eq_some_iff]
  split at h
  · cases h
  · next e he =>
    split at h
    · next hbody =>
      cases h
      exact ⟨e, he, hbody⟩
    · cases h

theorem mem_entityNumbers_of_entity? {a : Atlas} {e : Entity} (h : a.entity? id = some e) :
    id ∈ a.entityNumbers := by
  obtain ⟨n⟩ := id
  obtain ⟨hlt, -⟩ := Array.getElem?_eq_some_iff.mp h
  simp only [EntityId.slot] at hlt
  simp only [entityNumbers, List.mem_map, List.mem_range, EntityId.mk.injEq, exists_eq_right]
  omega

/-- Every entity stands where its number says. -/
def IsNumbered (a : Atlas) : Prop :=
  ∀ slot, (h : slot < a.entities.size) → a.entities[slot].id = .ofSlot slot

instance (a : Atlas) : Decidable a.IsNumbered :=
  inferInstanceAs (Decidable (∀ slot, (h : slot < a.entities.size) →
    a.entities[slot].id = .ofSlot slot))

theorem IsNumbered.id_eq {a : Atlas} (h : a.IsNumbered) {e : Entity} (he : a.entity? id = some e) :
    e.id = .ofSlot id.slot := by
  obtain ⟨hlt, hget⟩ := Array.getElem?_eq_some_iff.mp he
  rw [← hget]
  exact h id.slot hlt

/-! ## Using relations -/

section Using

-- Using relations are set up by changing what namespaces use, and by nothing else.
variable {P : Atlas → Prop} (hP : ∀ b id f, P b → P (b.modifyNamespace id f))
variable {a b : Atlas} {id : EntityId}

include hP

theorem useNamespace_kept {target : EntityId} (h : a.useNamespace id target = .ok b) (ha : P a) :
    P b := by
  obtain ⟨n, -, h⟩ := Except.bind_eq_ok h
  obtain ⟨n', -, h⟩ := Except.bind_eq_ok h
  split at h
  · cases h
    exact ha
  · cases h
    exact hP a id _ ha

theorem useDeclaration_kept {name : String} {target : UsingTarget}
    (h : a.useDeclaration id name target = .ok b) (ha : P a) : P b := by
  obtain ⟨n, -, h⟩ := Except.bind_eq_ok h
  cases h
  exact hP a id _ ha

theorem closeFrom_kept (id : EntityId) (ha : P a) : P (a.closeFrom id) := by
  unfold closeFrom
  split
  · apply foldl_kept
    · exact fun b id hb => hP b id _ hb
    · exact foldl_kept (fun b id hb => hP b id _ hb) _ ha
  · exact ha

theorem closeUsing_kept (h : a.closeUsing id = .ok b) (ha : P a) : P b := by
  obtain ⟨n, -, h⟩ := Except.bind_eq_ok h
  cases h
  exact closeFrom_kept hP id ha

theorem closeAllUsing_kept (ha : P a) : P a.closeAllUsing :=
  foldl_kept (P := P) (fun _ id hb => closeFrom_kept hP id hb) _ ha

end Using

end Atlas

end SymbolAtlas
