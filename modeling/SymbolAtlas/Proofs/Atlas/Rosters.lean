import SymbolAtlas.Proofs.Atlas.Operations
import SymbolAtlas.Proofs.Atlas.Tidy
import SymbolAtlas.Proofs.Inheritance.Recursion

/-!
# Rosters along operations

Whatever is done to an atlas, its classes list members under their names, and hidden members nowhere.
A class that is merged stays so, and as long as none is, no class has an inherited view.
-/

set_option autoImplicit false

namespace SymbolAtlas

/-- Members are listed under their names, and hidden ones not at all. Views may have to be of own
members. -/
def Rule.named (isOwn : Bool) (merges : Nat → Option Bool → Prop) (bound : Nat)
    (hnew : ∀ slot, bound ≤ slot → merges slot none ∧ merges slot (some false)) : Rule where
  lists _ name m v := m.name = name ∧ m.flags.isHidden = false ∧ 0 < v.member.number ∧
    (isOwn = true → v.isInherited = false)
  merges
  bound
  lists_mirror hmirrors _ := fun ⟨hname, hhidden, hrest⟩ =>
    ⟨hmirrors.name.trans hname, hmirrors.isHidden.trans hhidden, hrest⟩
  lists_own hhidden hpos _ := ⟨rfl, hhidden, hpos, fun _ => rfl⟩
  lists_copy hmirrors hpos _ := fun ⟨hname, hhidden, _, hown⟩ =>
    ⟨hmirrors.name.trans hname, hmirrors.isHidden.trans hhidden, hpos, hown⟩
  merges_new := hnew

/-- Classes may be merged. -/
def Rule.reached : Rule :=
  .named false (fun _ _ => True) 0 fun _ _ => ⟨trivial, trivial⟩

/-- The class in a slot is merged. -/
def Rule.mergedAt (slot : Nat) : Rule :=
  .named false (fun slot' isMerged => slot' = slot → isMerged = some true) (slot + 1)
    fun _ hle => ⟨fun heq => absurd heq (Nat.ne_of_gt hle), fun heq => absurd heq (Nat.ne_of_gt hle)⟩

theorem isUnmerged_new : (none : Option Bool) ≠ some true ∧ some false ≠ some true := by
  simp

/-- No class is merged, and all views are of own members. -/
def Rule.unmerged : Rule :=
  .named true (fun _ isMerged => isMerged ≠ some true) 0 fun _ _ => isUnmerged_new

theorem Entity.stamp_mergedIn (e : Entity) (a : Atlas) :
    (e.mergedIn a).stamp =
      (e.id, e.class?.map fun c => ((a.takenOver e.separator c.roster c.bases).1, true)) :=
  Prod.ext (congrArg Outline.id (e.outline_mergedIn a)) (e.class?_mergedIn a)

namespace Atlas.Upholds

variable {a b : Atlas} {isOwn : Bool} {merges : Nat → Option Bool → Prop} {bound : Nat}
variable {hnew : ∀ slot, bound ≤ slot → merges slot none ∧ merges slot (some false)}

/-! ## Merging -/

theorem setAside {rule : Rule} (h : a.Upholds rule) (hmerges : ∀ slot, rule.merges slot (some true))
    (id : EntityId) : (a.setAside id).Upholds rule := by
  refine h.modifyEntity id fun e he => ?_
  rw [e.stamp_modifyClass (g := fun _ => (.empty, true)) fun c => rfl]
  exact he.map fun _ _ _ _ => ⟨lists_empty a rule _, hmerges _⟩

theorem mergeOne (h : a.Upholds (.named false merges bound hnew))
    (hmerges : ∀ slot, merges slot (some true)) (u : EntityId) :
    (a.mergeOne u).value.Upholds (.named false merges bound hnew) := by
  rw [value_mergeOne]
  split
  · have haway := h.setAside hmerges u
    refine h.modifyEntity u fun e he => ?_
    obtain ⟨hid, hnone, hlists⟩ := he
    rw [e.stamp_mergedIn]
    unfold Entity.stamp at hid hnone hlists
    cases hclass : e.class? with
    | none => exact ⟨hid, by rwa [hclass] at hnone, fun body hbody => nomatch hbody⟩
    | some c =>
      refine ⟨hid, hmerges _, fun body hbody => ?_⟩
      cases hbody
      intro name t ht
      rcases ((a.setAside u).takenOver_grown e.separator c.roster c.bases name).mem ht with
        ⟨v, hv, hmarked⟩ | ⟨before, edge, after, -, s, hs, harrival⟩
      · rw [hmarked.eq]
        exact hlists (c.roster, c.isMerged) (by rw [hclass]; rfl) name v hv
      · obtain ⟨m, hm, hname, hhidden, hpos, -⟩ := haway.lists_rosterOf edge.target name s hs
        exact ⟨m, harrival.member ▸ hm, hname, hhidden, harrival.member ▸ hpos, nofun⟩
  · exact h

/-! ## Amending and using -/

theorem modifyMember (h : a.Upholds (.named isOwn merges bound hnew)) (id : MemberId)
    {f : Member → Member}
    (hf : ∀ m, (f m).id = m.id ∧ (f m).name = m.name ∧ (f m).flags.isHidden = m.flags.isHidden) :
    (a.modifyMember id f).Upholds (.named isOwn merges bound hnew) := by
  refine h.of_carries rfl (fun id' m hm => ?_) fun id' m hm => ?_
  · rw [member?_modifyMember] at hm
    split at hm
    · obtain ⟨m', hm', rfl⟩ := Option.map_eq_some_iff.mp hm
      rw [(hf m').1]
      exact h.members id' m' hm'
    · exact h.members id' m hm
  · rw [member?_modifyMember]
    split
    · refine ⟨f m, by rw [hm]; rfl, fun slot name v hv => ?_⟩
      exact ⟨(hf m).2.1.trans hv.1, (hf m).2.2.trans hv.2.1, hv.2.2⟩
    · exact ⟨m, hm, fun _ _ _ hv => hv⟩

theorem instantiateVariable {rule : Rule} (h : a.Upholds rule) {template : EntityId} {spec : String}
    {made : Noted (Atlas × EntityId)} (hmade : a.instantiateVariable template spec = .ok made) :
    made.value.1.Upholds rule := by
  rcases instantiateVariable_cases hmade with heq | ⟨master, -, -, heq⟩ <;> rw [heq]
  · exact h
  · apply Upholds.modifyClass
    · apply Upholds.modifyClass
      · apply copyMembers
        apply modifyEntity_of_stamp
        · exact h.allocate _ _ _
        · intro e
          rfl
      · intro c
        rfl
    · intro c
      rfl

end Atlas.Upholds

namespace Operation

variable {a : Atlas} {isOwn : Bool} {merges : Nat → Option Bool → Prop} {bound : Nat}
variable {hnew : ∀ slot, bound ≤ slot → merges slot none ∧ merges slot (some false)}

/-! ## Operations -/

/-- The operation leaves rosters alone if it amends an entity, and keeps number and name of a member
that it amends, and whether the member is hidden. -/
def KeepsRosters : Operation → Prop
  | amend _ amendment => ∀ e, (amendment.apply e).stamp = e.stamp
  | amendMember _ change => ∀ m, (change m).id = m.id ∧ (change m).name = m.name ∧
      (change m).flags.isHidden = m.flags.isHidden
  | _ => True

/-- The operation merges classes. -/
def IsMerge : Operation → Prop
  | mergeMembers _ | mergeAll => True
  | _ => False

theorem perform_kept_of_isMerge {P : Atlas → Prop} (hP : ∀ b u, P b → P (b.mergeOne u).value)
    {operation : Operation} (h : operation.IsMerge) (ha : P a) : P (operation.perform a) := by
  cases operation with
  | mergeMembers id =>
    refine outcome_kept ha fun merged hmerged => ?_
    obtain ⟨c, -, hmerged⟩ := Except.bind_eq_ok hmerged
    cases hmerged
    exact Atlas.mergeFrom_induction hP id ha
  | mergeAll => exact Atlas.mergeAll_induction hP ha
  | _ => exact h.elim

/-- The step lemma for all operations but merges. -/
theorem upholds_perform (operation : Operation) (h : operation.KeepsRosters)
    (hmerge : ¬operation.IsMerge) (ha : a.Upholds (.named isOwn merges bound hnew)) :
    (operation.perform a).Upholds (.named isOwn merges bound hnew) := by
  have hkept {α : Type} {result : Except Fault α} {atlas : α → Atlas}
      (h : ∀ value, result = .ok value → (atlas value).Upholds (.named isOwn merges bound hnew)) :
      (outcome a result atlas).Upholds (.named isOwn merges bound hnew) :=
    outcome_kept (P := fun b => b.Upholds (.named isOwn merges bound hnew)) ha h
  have hmodify (b : Atlas) (id : EntityId) (f : NamespaceBody → NamespaceBody)
      (hb : b.Upholds (.named isOwn merges bound hnew)) :
      (b.modifyNamespace id f).Upholds (.named isOwn merges bound hnew) :=
    hb.modifyNamespace id f
  cases operation with
  | register name kind location => exact ha.register name kind location
  | amend id amendment => exact ha.modifyEntity_of_stamp id h
  | setOuter inner outer => exact ha.setOuter inner outer
  | setFormals id formals => exact hkept fun b hb => ha.setFormals hb
  | addMember owner m => exact ha.addMember owner m
  | amendMember id change => exact ha.modifyMember id h
  | insertMember owner id =>
    refine hkept fun filed hfiled => ha.insertMember (fun m hm hhidden p => ?_) hfiled
    refine ⟨rfl, hhidden, ?_, fun _ => rfl⟩
    rw [View.direct, ha.members id m hm]
    exact Nat.succ_pos _
  | insertBase child parent edge =>
    refine hkept fun linked hlinked => ?_
    obtain ⟨c, -, hlinked⟩ := Except.bind_eq_ok hlinked
    obtain ⟨c', -, hlinked⟩ := Except.bind_eq_ok hlinked
    cases hlinked
    exact ha.linkBase _ _
  | instantiate template spec => exact hkept fun made hmade => ha.instantiate hmade
  | instantiateVariable template spec =>
    exact hkept fun made hmade => ha.instantiateVariable hmade
  | mergeMembers id => exact absurd trivial hmerge
  | mergeAll => exact absurd trivial hmerge
  | mergeCategory id category => exact hkept fun merged hmerged => ha.mergeCategory hmerged
  | useNamespace id target =>
    exact hkept fun b hb => Atlas.useNamespace_kept hmodify hb ha
  | useDeclaration id name target =>
    exact hkept fun b hb => Atlas.useDeclaration_kept hmodify hb ha
  | closeUsing id =>
    exact hkept fun b hb => Atlas.closeUsing_kept hmodify hb ha
  | closeAllUsing => exact Atlas.closeAllUsing_kept hmodify ha

theorem upholds_perform_of_merges (hmerges : ∀ slot, merges slot (some true))
    (operation : Operation) (h : operation.KeepsRosters)
    (ha : a.Upholds (.named false merges bound hnew)) :
    (operation.perform a).Upholds (.named false merges bound hnew) := by
  by_cases hmerge : operation.IsMerge
  · exact perform_kept_of_isMerge (P := fun b => b.Upholds (.named false merges bound hnew))
      (fun b u hb => hb.mergeOne hmerges u) hmerge ha
  · exact operation.upholds_perform h hmerge ha

end Operation

namespace Atlas

variable {a : Atlas}

/-! ## What is merged stays merged -/

theorem Upholds.mergedAt (h : a.Upholds .reached) {id : EntityId} {c : ClassBody}
    (hc : a.class? id = some c) (hmerged : c.isMerged = true) : a.Upholds (.mergedAt id.slot) := by
  obtain ⟨e, he, hbody⟩ := (a.class?_eq_some_iff id c).mp hc
  refine ⟨(Array.getElem?_eq_some_iff.mp he).1, h.members, fun id' e' he' => ?_⟩
  obtain ⟨hid, -, hlists⟩ := h.entities id' e' he'
  refine ⟨hid, fun hslot => ?_, hlists⟩
  rw [← a.entity?_eq_of_slot hslot.symm, he] at he'
  cases he'
  rw [Entity.stamp, hbody]
  exact congrArg some hmerged

theorem Upholds.not_isFresh {slot : Nat} (h : a.Upholds (.mergedAt slot)) : ¬a.IsFresh := by
  intro hfresh
  have hlt : slot < a.entities.size := h.bound
  have he : a.entity? (.ofSlot slot) = some a.entities[slot] := Array.getElem?_eq_getElem hlt
  have hmerged := (h.entities _ _ he).merges rfl
  have hunmerged := hfresh _ (Array.getElem_mem hlt)
  unfold Entity.stamp at hmerged
  cases hclass : a.entities[slot].class? with
  | none => simp [hclass] at hmerged
  | some c => simp_all

theorem exists_mergedAt (h : a.Upholds .reached) (hfresh : ¬a.IsFresh) :
    ∃ slot, a.Upholds (.mergedAt slot) := by
  unfold IsFresh at hfresh
  push Not at hfresh
  obtain ⟨e, he, hmerged⟩ := hfresh
  obtain ⟨slot, hlt, rfl⟩ := Array.mem_iff_getElem.mp he
  cases hclass : a.entities[slot].class? with
  | none => simp [hclass] at hmerged
  | some c =>
    have hc : a.class? (.ofSlot slot) = some c :=
      (a.class?_eq_some_iff _ c).mpr ⟨_, Array.getElem?_eq_getElem hlt, hclass⟩
    exact ⟨_, h.mergedAt hc (by simpa [hclass] using hmerged)⟩

theorem mergeOne_eq_or_mergedAt (h : a.Upholds .reached) (u : EntityId) :
    (a.mergeOne u).value = a ∨ ∃ slot, (a.mergeOne u).value.Upholds (.mergedAt slot) := by
  have hafter := h.mergeOne (fun _ => trivial) u
  rw [value_mergeOne] at hafter ⊢
  split at hafter
  · next hu =>
    obtain ⟨c, hc⟩ : ∃ c, a.class? u = some c := by
      cases hc : a.class? u with
      | none => simp [isUnmerged, hc] at hu
      | some c => exact ⟨c, rfl⟩
    obtain ⟨e, he, hbody⟩ := (a.class?_eq_some_iff u c).mp hc
    have hclass := e.class?_mergedIn (a.setAside u)
    rw [hbody] at hclass
    obtain ⟨c', hbody', heq⟩ := Option.map_eq_some_iff.mp hclass
    have hc' : (a.modifyEntity u (·.mergedIn (a.setAside u))).class? u = some c' := by
      refine (class?_eq_some_iff _ u c').mpr ⟨_, ?_, hbody'⟩
      rw [entity?_modifyEntity, if_pos rfl, he, Option.map_some]
    rw [if_pos hu]
    exact .inr ⟨_, Upholds.mergedAt hafter hc' (congrArg Prod.snd heq)⟩
  · next hu => exact .inl (if_neg hu)

end Atlas

namespace Operation

variable {a : Atlas}

/-- The run lemma, and what holds in addition before the first merge. -/
theorem upholds_performAll (options : Options) {operations : List Operation}
    (h : ∀ operation ∈ operations, operation.KeepsRosters) :
    (performAll (.empty options) operations).Upholds .reached ∧
      ((performAll (.empty options) operations).IsFresh →
        (performAll (.empty options) operations).Upholds .unmerged) := by
  refine List.foldlRecOn (motive := fun b : Atlas => b.Upholds .reached ∧
    (b.IsFresh → b.Upholds .unmerged)) _ _
    ⟨.empty _ rfl options, fun _ => .empty _ rfl options⟩ fun b hb operation hoperation => ?_
  have hkeeps := h operation hoperation
  have hreached := operation.upholds_perform_of_merges (fun _ => trivial) hkeeps hb.1
  refine ⟨hreached, fun hfresh => ?_⟩
  have hbefore : b.IsFresh := by
    by_contra hmerged
    obtain ⟨slot, hslot⟩ := Atlas.exists_mergedAt hb.1 hmerged
    exact (operation.upholds_perform_of_merges (fun _ _ => rfl) hkeeps hslot).not_isFresh hfresh
  by_cases hmerge : operation.IsMerge
  · have hchanged : operation.perform b = b ∨
        ∃ slot, (operation.perform b).Upholds (.mergedAt slot) := by
      refine perform_kept_of_isMerge (P := fun c => c = b ∨ ∃ slot, c.Upholds (.mergedAt slot))
        (fun c u hc => ?_) hmerge (.inl rfl)
      rcases hc with rfl | ⟨slot, hslot⟩
      · exact Atlas.mergeOne_eq_or_mergedAt hb.1 u
      · exact .inr ⟨slot, hslot.mergeOne (fun _ _ => rfl) u⟩
    rcases hchanged with heq | ⟨slot, hslot⟩
    · rw [heq]
      exact hb.2 hbefore
    · exact absurd hfresh hslot.not_isFresh
  · exact operation.upholds_perform hkeeps hmerge (hb.2 hbefore)

end Operation

end SymbolAtlas
