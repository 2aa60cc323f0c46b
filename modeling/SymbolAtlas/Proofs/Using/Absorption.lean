import SymbolAtlas.Proofs.Dict
import SymbolAtlas.Proofs.Inheritance.Outline

/-!
# What a namespace absorbs

Absorbing takes into a namespace what the namespaces it uses use at that moment, and changes no
other namespace. Used namespaces are kept by their names, so that this is the union of sets only
where the names tell them apart.
-/

set_option autoImplicit false

namespace SymbolAtlas.Atlas

/-- Namespaces have names of their own, and use namespaces under their names, but not themselves. -/
structure HasSoundUsing (a : Atlas) : Prop where
  isNumbered : a.IsNumbered
  named : ∀ n ∈ a.namespaceIds, ∀ entry ∈ (a.directives n).toList,
    entry.2 ∈ a.namespaceIds ∧ entry.1 = a.name entry.2 ∧ entry.2 ≠ n
  distinct : ∀ v ∈ a.namespaceIds, ∀ w ∈ a.namespaceIds, a.name v = a.name w → v = w

/-! ## Numbers of namespaces -/

theorem IsNumbered.mem_namespaceIds_iff {a : Atlas} (h : a.IsNumbered) (n : EntityId) :
    n ∈ a.namespaceIds ↔ n = .ofSlot n.slot ∧ (a.namespace? n).isSome = true := by
  unfold namespaceIds
  rw [List.mem_map]
  constructor
  · rintro ⟨e, he, rfl⟩
    obtain ⟨hmem, hnamespace⟩ := List.mem_filter.mp he
    obtain ⟨slot, hslot, hget⟩ := Array.mem_iff_getElem.mp (Array.mem_toList_iff.mp hmem)
    have hid : e.id = .ofSlot slot := hget ▸ h slot hslot
    refine ⟨by rw [hid]; rfl, ?_⟩
    unfold namespace? entity?
    rw [hid, EntityId.slot_ofSlot, Array.getElem?_eq_getElem hslot, hget]
    exact hnamespace
  · rintro ⟨hn, hsome⟩
    obtain ⟨body, hbody⟩ := Option.isSome_iff_exists.mp hsome
    obtain ⟨e, he, hnamespace⟩ := Option.bind_eq_some_iff.mp hbody
    refine ⟨e, List.mem_filter.mpr ⟨?_, ?_⟩, (h.id_eq he).trans hn.symm⟩
    · exact Array.mem_toList_iff.mpr (Array.mem_of_getElem? he)
    · simp [Entity.isNamespace, hnamespace]

theorem IsNumbered.eq_of_slot {a : Atlas} (h : a.IsNumbered) {n m : EntityId}
    (hn : n ∈ a.namespaceIds) (hm : m ∈ a.namespaceIds) (hslot : n.slot = m.slot) : n = m := by
  rw [((h.mem_namespaceIds_iff n).mp hn).1, hslot, ← ((h.mem_namespaceIds_iff m).mp hm).1]

/-! ## Changes of one namespace -/

theorem namespace?_modifyNamespace (a : Atlas) (id id' : EntityId)
    (f : NamespaceBody → NamespaceBody) :
    (a.modifyNamespace id f).namespace? id' =
      if id.slot = id'.slot then (a.namespace? id').map f else a.namespace? id' :=
  a.read_modifyEntity id id' (r := fun x => x.bind (·.namespace?)) rfl
    fun e => e.namespace?_modifyNamespace f

theorem resembles_modifyNamespace (a : Atlas) (id : EntityId) (f : NamespaceBody → NamespaceBody) :
    (a.modifyNamespace id f).Resembles a := by
  refine .modifyEntity a id fun e => ?_
  unfold Entity.outline Entity.separator Entity.isClass
  rw [e.class?_modifyNamespace]
  unfold Entity.modifyNamespace
  split <;> rfl

/-! ## Absorbing -/

section

variable (a : Atlas) (u : EntityId) (k : String)

theorem mem_broughtDirectives_iff (w : EntityId) :
    (k, w) ∈ a.broughtDirectives u ↔
      w ≠ u ∧ ∃ v ∈ a.usedNamespaces u, (a.directives v).get? k = some w := by
  simp only [broughtDirectives, List.mem_filter, List.mem_flatMap, Dict.mem_toList_iff,
    decide_eq_true_eq, and_comm]

theorem mem_broughtDeclarations_iff (t : UsingTarget) :
    (k, t) ∈ a.broughtDeclarations u ↔
      ∃ v ∈ a.usedNamespaces u, (a.declarations v).get? k = some t := by
  simp only [broughtDeclarations, List.mem_flatMap, Dict.mem_toList_iff]

theorem get?_directives_absorbUsed {n : EntityId} (hn : (a.namespace? n).isSome = true) :
    ((a.absorbUsed u).directives n).get? k =
      if u.slot = n.slot then ((a.directives n).get? k).or ((a.broughtDirectives u).lookup k)
      else (a.directives n).get? k := by
  obtain ⟨body, hbody⟩ := Option.isSome_iff_exists.mp hn
  unfold directives
  rw [absorbUsed, namespace?_modifyNamespace, hbody]
  split
  · exact Dict.get?_foldl_insertNew _ _ _
  · rfl

theorem get?_declarations_absorbUsed {n : EntityId} (hn : (a.namespace? n).isSome = true) :
    ((a.absorbUsed u).declarations n).get? k =
      if u.slot = n.slot then
        ((a.declarations n).get? k).or ((a.broughtDeclarations u).lookup k)
      else (a.declarations n).get? k := by
  obtain ⟨body, hbody⟩ := Option.isSome_iff_exists.mp hn
  unfold declarations
  rw [absorbUsed, namespace?_modifyNamespace, hbody]
  split
  · exact Dict.get?_foldl_insertNew _ _ _
  · rfl

theorem resembles_absorbUsed : (a.absorbUsed u).Resembles a :=
  a.resembles_modifyNamespace u _

end

namespace HasSoundUsing

variable {a : Atlas} {n u w : EntityId}

variable (h : a.HasSoundUsing)

include h

theorem isSome_namespace? (hn : n ∈ a.namespaceIds) : (a.namespace? n).isSome = true :=
  ((h.isNumbered.mem_namespaceIds_iff n).mp hn).2

theorem mem_usedNamespaces_iff (hn : n ∈ a.namespaceIds) :
    w ∈ a.usedNamespaces n ↔ (a.directives n).get? (a.name w) = some w := by
  rw [usedNamespaces, Dict.mem_values_iff]
  constructor
  · rintro ⟨k, hk⟩
    obtain ⟨-, hname, -⟩ := h.named n hn (k, w) ((Dict.mem_toList_iff _ _ _).mpr hk)
    rw [← hname]
    exact hk
  · intro hget
    exact ⟨_, hget⟩

theorem used (hn : n ∈ a.namespaceIds) (hw : w ∈ a.usedNamespaces n) :
    w ∈ a.namespaceIds ∧ w ≠ n := by
  obtain ⟨hmem, -, hne⟩ := h.named n hn (a.name w, w)
    ((Dict.mem_toList_iff _ _ _).mpr ((h.mem_usedNamespaces_iff hn).mp hw))
  exact ⟨hmem, hne⟩

theorem mem_namespaceIds_of_used (hw : w ∈ a.usedNamespaces n) : w ∈ a.namespaceIds := by
  have hsome : (a.namespace? n).isSome = true := by
    unfold usedNamespaces directives at hw
    cases hbody : a.namespace? n with
    | none =>
      rw [hbody] at hw
      cases hw
    | some body => rfl
  have hn : EntityId.ofSlot n.slot ∈ a.namespaceIds :=
    (h.isNumbered.mem_namespaceIds_iff _).mpr ⟨rfl, hsome⟩
  exact (h.used hn hw).1

variable (hu : u ∈ a.namespaceIds)

include hu

theorem brought {k : String} (hbrought : (k, w) ∈ a.broughtDirectives u) :
    w ∈ a.namespaceIds ∧ k = a.name w ∧ w ≠ u := by
  obtain ⟨hne, v, hv, hget⟩ := (a.mem_broughtDirectives_iff u k w).mp hbrought
  obtain ⟨hmem, hname, -⟩ := h.named v (h.used hu hv).1 (k, w)
    ((Dict.mem_toList_iff _ _ _).mpr hget)
  exact ⟨hmem, hname, hne⟩

/-- Absorbing keeps names and directives in step. -/
theorem absorbUsed : (a.absorbUsed u).HasSoundUsing := by
  have hresembles := a.resembles_absorbUsed u
  refine ⟨hresembles.isNumbered h.isNumbered, fun n hn entry hentry => ?_,
    fun v hv w hw hname => ?_⟩
  · obtain ⟨k, w⟩ := entry
    rw [hresembles.namespaceIds] at hn ⊢
    rw [hresembles.name]
    rw [Dict.mem_toList_iff, a.get?_directives_absorbUsed u _ (h.isSome_namespace? hn)] at hentry
    split at hentry
    · next hslot =>
      obtain rfl := h.isNumbered.eq_of_slot hu hn hslot
      rcases Option.or_eq_some_iff.mp hentry with hget | ⟨-, hlookup⟩
      · exact h.named u hn (k, w) ((Dict.mem_toList_iff _ _ _).mpr hget)
      · exact h.brought hn (Dict.mem_of_lookup hlookup)
    · exact h.named n hn (k, w) ((Dict.mem_toList_iff _ _ _).mpr hentry)
  · rw [hresembles.namespaceIds] at hv hw
    rw [hresembles.name, hresembles.name] at hname
    exact h.distinct v hv w hw hname

/-- Which namespaces are used after one of them has absorbed. -/
theorem mem_usedNamespaces_absorbUsed (hn : n ∈ a.namespaceIds) :
    w ∈ (a.absorbUsed u).usedNamespaces n ↔ w ∈ a.usedNamespaces n ∨
      n = u ∧ w ≠ u ∧ ∃ v ∈ a.usedNamespaces u, w ∈ a.usedNamespaces v := by
  have hresembles := a.resembles_absorbUsed u
  rw [(h.absorbUsed hu).mem_usedNamespaces_iff (hresembles.namespaceIds ▸ hn), hresembles.name,
    a.get?_directives_absorbUsed u _ (h.isSome_namespace? hn), h.mem_usedNamespaces_iff hn]
  have hbrought : (a.name w, w) ∈ a.broughtDirectives u ↔
      w ≠ u ∧ ∃ v ∈ a.usedNamespaces u, w ∈ a.usedNamespaces v := by
    rw [mem_broughtDirectives_iff]
    refine and_congr_right fun _ => exists_congr fun v => and_congr_right fun hv => ?_
    exact (h.mem_usedNamespaces_iff (h.used hu hv).1).symm
  split
  · next hslot =>
    obtain rfl := h.isNumbered.eq_of_slot hu hn hslot
    rw [← hbrought]
    constructor
    · intro hget
      rcases Option.or_eq_some_iff.mp hget with hget | ⟨-, hlookup⟩
      · exact .inl hget
      · exact .inr ⟨rfl, Dict.mem_of_lookup hlookup⟩
    · rintro (hget | ⟨-, hmem⟩)
      · rw [hget]
        rfl
      · -- The name may be there already, but only for the namespace itself.
        cases hget : (a.directives u).get? (a.name w) with
        | some w' =>
          obtain ⟨hmem', hname, -⟩ := h.named u hn _ ((Dict.mem_toList_iff _ _ _).mpr hget)
          rw [h.distinct w (h.brought hn hmem).1 w' hmem' hname]
          rfl
        | none =>
          obtain ⟨w', hlookup, hmem'⟩ := Dict.exists_lookup_of_mem hmem
          obtain ⟨hw', hname, -⟩ := h.brought hn hmem'
          rw [hlookup, h.distinct w (h.brought hn hmem).1 w' hw' hname]
          rfl
  · next hslot =>
    constructor
    · exact .inl
    · rintro (hget | ⟨rfl, -⟩)
      · exact hget
      · exact absurd rfl hslot

/-- Which declarations are used after a namespace has absorbed. -/
theorem contains_declarations_absorbUsed (hn : n ∈ a.namespaceIds) (k : String) :
    ((a.absorbUsed u).declarations n).contains k = true ↔ (a.declarations n).contains k = true ∨
      n = u ∧ ∃ v ∈ a.usedNamespaces u, (a.declarations v).contains k = true := by
  unfold Dict.contains
  rw [a.get?_declarations_absorbUsed u _ (h.isSome_namespace? hn)]
  split
  · next hslot =>
    obtain rfl := h.isNumbered.eq_of_slot hu hn hslot
    rw [Option.isSome_or, Bool.or_eq_true]
    refine or_congr_right ?_
    constructor
    · intro hsome
      obtain ⟨t, hlookup⟩ := Option.isSome_iff_exists.mp hsome
      obtain ⟨v, hv, hget⟩ := (a.mem_broughtDeclarations_iff u k t).mp (Dict.mem_of_lookup hlookup)
      exact ⟨rfl, v, hv, by rw [hget]; rfl⟩
    · rintro ⟨-, v, hv, hsome⟩
      obtain ⟨t, hget⟩ := Option.isSome_iff_exists.mp hsome
      obtain ⟨t', hlookup, -⟩ := Dict.exists_lookup_of_mem
        ((a.mem_broughtDeclarations_iff u k t).mpr ⟨v, hv, hget⟩)
      rw [hlookup]
      rfl
  · next hslot =>
    constructor
    · exact .inl
    · rintro (hget | ⟨rfl, -⟩)
      · exact hget
      · exact absurd rfl hslot

end HasSoundUsing

end SymbolAtlas.Atlas
