import Mathlib.Data.List.Basic
import Mathlib.Data.List.Induction
import SymbolAtlas.Proofs.Inheritance.Arrival

/-!
# Merging one class

Merging a class changes that class and nothing else. What becomes of it is told by a function of the
class as it was and of the rosters of its bases.
-/

set_option autoImplicit false

namespace SymbolAtlas

variable {b : Atlas} {P : Atlas → Prop} {separator : String} {views : List View} {m : Member}

/-- The entity with an inherited member filed as if it were its own. -/
def Entity.inlining (a : Atlas) (e : Entity) (entry : MemberId × Protection) : Entity :=
  match a.member? entry.1 with
  | none => e
  | some m =>
    if m.flags.isHidden then e
    else
      let e :=
        match Placement.ofMember? m entry.2 a.options with
        | some placement => e.filed placement entry.1
        | none => e
      e.modifyClass fun c => c.noting m entry.1 none

/-- The entity with a member filed where a placement says, if there is one, and noted. -/
def Entity.holding (e : Entity) (placement? : Option Placement) (m : Member) (id : MemberId)
    (entry : Option View) : Entity :=
  (match placement? with
    | some placement => e.filed placement id
    | none => e).modifyClass fun c => c.noting m id entry

namespace Atlas

/-- A roster after edges have brought what the bases have, and the members that are inlined. -/
def takenOver (a : Atlas) (separator : String) (own : Roster) (edges : List BaseEdge) :
    Roster × Inlined :=
  edges.foldl (fun state edge => (a.inheritFrom separator state edge).value) (own, [])

/-- The atlas while a class is being merged: the class shows no members to its own bases. -/
def setAside (a : Atlas) (id : EntityId) : Atlas :=
  a.modifyClass id fun c => { c with isMerged := true, roster := .empty }

end Atlas

/-- The entity after the members of its bases, as they stand in an atlas, have been taken over. A
namespace stays as it is. -/
def Entity.mergedIn (e : Entity) (a : Atlas) : Entity :=
  match e.class? with
  | none => e
  | some c =>
    let taken := a.takenOver e.separator c.roster c.bases
    taken.2.foldl (Entity.inlining a)
      (e.modifyClass fun c => { c with isMerged := true, roster := taken.1 })

/-! ## What inlining keeps -/

theorem ClassBody.bases_noting (c : ClassBody) (m : Member) (id : MemberId) (entry : Option View) :
    (c.noting m id entry).bases = c.bases := by
  unfold noting
  cases entry <;> dsimp only <;> split <;> split <;> rfl

theorem ClassBody.roster_noting_none (c : ClassBody) (m : Member) (id : MemberId) :
    ((c.noting m id none).roster, (c.noting m id none).isMerged) = (c.roster, c.isMerged) := by
  unfold noting
  split <;> split <;> rfl

namespace Entity

variable (e : Entity)

theorem outline_modifyClass {f : ClassBody → ClassBody} (hf : ∀ c, (f c).bases = c.bases) :
    (e.modifyClass f).outline = e.outline := by
  unfold outline separator isClass
  rw [e.map_class?_modifyClass (v := (·.bases)) (g := fun bases => bases) hf, Option.map_id',
    class?_modifyClass, Option.isSome_map]
  unfold modifyClass
  split <;> rfl

theorem outline_filed (placement : Placement) (id : MemberId) :
    (e.filed placement id).outline = e.outline := by
  unfold filed
  dsimp only
  split
  · rfl
  · rw [outline_modifyClass _ (by intro c; rfl)]
    rfl

theorem map_roster_filed (placement : Placement) (id : MemberId) :
    (e.filed placement id).class?.map (fun c => (c.roster, c.isMerged)) =
      e.class?.map fun c => (c.roster, c.isMerged) := by
  unfold filed
  dsimp only
  split
  · rfl
  · rw [class?_modifyClass, Option.map_map]
    rfl

variable (a : Atlas)

theorem outline_inlining (e : Entity) (entry : MemberId × Protection) :
    (e.inlining a entry).outline = e.outline := by
  unfold inlining
  split
  · rfl
  · split
    · rfl
    · rw [outline_modifyClass _ fun c => c.bases_noting _ _ _]
      split
      · exact outline_filed _ _ _
      · rfl

theorem map_roster_inlining (e : Entity) (entry : MemberId × Protection) :
    (e.inlining a entry).class?.map (fun c => (c.roster, c.isMerged)) =
      e.class?.map fun c => (c.roster, c.isMerged) := by
  unfold inlining
  split
  · rfl
  · split
    · rfl
    · rw [class?_modifyClass, Option.map_map]
      simp only [Function.comp_def, ClassBody.roster_noting_none]
      split
      · exact map_roster_filed _ _ _
      · rfl

theorem foldl_inlining (inlined : Inlined) (e : Entity) :
    (inlined.foldl (inlining a) e).outline = e.outline ∧
      (inlined.foldl (inlining a) e).class?.map (fun c => (c.roster, c.isMerged)) =
        e.class?.map fun c => (c.roster, c.isMerged) := by
  induction inlined generalizing e with
  | nil => exact ⟨rfl, rfl⟩
  | cons entry rest ih =>
    obtain ⟨houtline, hroster⟩ := ih (e.inlining a entry)
    exact ⟨houtline.trans (e.outline_inlining a entry),
      hroster.trans (e.map_roster_inlining a entry)⟩

theorem mergedIn_of_class?_eq_none {e : Entity} (h : e.class? = none) (a : Atlas) :
    e.mergedIn a = e := by
  unfold mergedIn
  rw [h]

theorem mergedIn_of_class?_eq_some {e : Entity} {c : ClassBody} (h : e.class? = some c)
    (a : Atlas) :
    e.mergedIn a = (a.takenOver e.separator c.roster c.bases).2.foldl (inlining a)
      (e.modifyClass fun c' =>
        { c' with
          isMerged := true
          roster := (a.takenOver e.separator c.roster c.bases).1 }) := by
  unfold mergedIn
  rw [h]

theorem outline_mergedIn : (e.mergedIn a).outline = e.outline := by
  unfold mergedIn
  split
  · rfl
  · rw [(foldl_inlining _ _ _).1]
    exact outline_modifyClass _ fun c => rfl

theorem class?_mergedIn : (e.mergedIn a).class?.map (fun c => (c.roster, c.isMerged)) =
      e.class?.map fun c => ((a.takenOver e.separator c.roster c.bases).1, true) := by
  unfold mergedIn
  split
  · next hnone => rw [hnone, Option.map_none, Option.map_none]
  · next c hsome =>
    rw [(foldl_inlining _ _ _).2, class?_modifyClass, hsome]
    rfl

theorem isMerged_mergedIn (c : ClassBody) (h : (e.mergedIn a).class? = some c) :
    c.isMerged = true := by
  have hclass := e.class?_mergedIn a
  rw [h] at hclass
  cases hbody : e.class? with
  | none => simp [hbody] at hclass
  | some c' =>
    rw [hbody, Option.map_some, Option.map_some, Option.some.injEq] at hclass
    exact (Prod.mk.inj hclass).2

end Entity

namespace Atlas

variable {id : EntityId} {c : ClassBody} {a : Atlas}

/-! ## Filing -/

theorem fileInClass_cases (a : Atlas) (owner : EntityId) (id : MemberId) (p : Protection)
    (isListed : Bool) : (a.fileInClass owner id p isListed).value = a ∨
      ∃ m entry, a.member? id = some m ∧ m.flags.isHidden = false ∧
        (∀ v ∈ entry, isListed = true ∧ v = View.direct m p) ∧
        (a.fileInClass owner id p isListed).value =
          a.modifyEntity owner (·.holding (Placement.ofMember? m p a.options) m id entry) := by
  unfold fileInClass
  split
  · next m e hm _ =>
    cases hhidden : m.flags.isHidden with
    | true => exact .inl rfl
    | false =>
      refine .inr ⟨m, if isListed && !(a.options.hideFriendCompounds && m.isFriendCompound) then
        some (View.direct m p) else none, hm, hhidden, fun v hv => ?_, ?_⟩
      · split at hv
        · next hflags => exact ⟨(Bool.and_eq_true_iff.mp hflags).1, (Option.some.inj hv).symm⟩
        · cases hv
      · cases Placement.ofMember? m p a.options <;> rfl
  · exact .inl rfl

theorem fileInNamespace_kept {id : MemberId}
    (hP : ∀ b owner m, P b → P (b.modifyEntity owner (·.posting m id))) (owner : EntityId)
    (ha : P a) : P (a.fileInNamespace owner id).value := by
  unfold fileInNamespace
  split
  · exact ha
  · next m _ =>
    split
    · exact ha
    · refine Noted.foldlM_kept (fun b owner hb => ?_) _ ha
      unfold fileInOneNamespace
      dsimp only
      split <;> exact hP b owner m hb

theorem insertMember_kept {owner : EntityId} {id : MemberId} {filed : Noted Atlas}
    (h : a.insertMember owner id = .ok filed)
    (hclass : ∀ p, P (a.fileInClass owner id p true).value)
    (hnamespace : P (a.fileInNamespace owner id).value) : P filed.value := by
  obtain ⟨m, -, h⟩ := Except.bind_eq_ok h
  obtain ⟨e, -, h⟩ := Except.bind_eq_ok h
  split at h
  · cases h
    exact hclass m.protection
  · cases h
    exact hnamespace

/-! ## The equation of a merge -/

section

variable (a : Atlas) (owner : EntityId)

theorem value_fileInClass_unlisted (id : MemberId) (p : Protection) :
    (a.fileInClass owner id p false).value =
      a.modifyEntity owner fun e => e.inlining a (id, p) := by
  have hself : a = a.modifyEntity owner fun e => e :=
    (a.modifyEntity_eq_self owner fun _ _ => rfl).symm
  unfold fileInClass
  cases hm : a.member? id with
  | none =>
    refine (a.modifyEntity_eq_self owner fun e _ => ?_).symm
    rw [Entity.inlining, hm]
  | some m =>
    cases he : a.entity? owner with
    | none =>
      refine (a.modifyEntity_eq_self owner fun e h => ?_).symm
      rw [he] at h
      cases h
    | some e =>
      unfold Entity.inlining
      rw [hm]
      dsimp only
      cases m.flags.isHidden with
      | true => exact hself
      | false => cases Placement.ofMember? m p a.options <;> rfl

theorem foldl_fileInClass (inlined : Inlined) :
    inlined.foldl (fun a entry => (a.fileInClass owner entry.1 entry.2 false).value) a =
      a.modifyEntity owner fun e => inlined.foldl (Entity.inlining a) e := by
  induction inlined generalizing a with
  | nil => exact (a.modifyEntity_eq_self owner fun _ _ => rfl).symm
  | cons entry rest ih =>
    rw [List.foldl_cons, ih, value_fileInClass_unlisted, modifyEntity_modifyEntity]
    rfl

theorem resembles_setAside (id : EntityId) : (a.setAside id).Resembles a :=
  .modifyEntity a id fun e => e.outline_modifyClass fun _ => rfl

theorem inheritFrom_setAside (separator : String) (state : Roster × Inlined) {edge : BaseEdge}
    (h : edge.target = id) : ((a.setAside id).inheritFrom separator state edge).value = state := by
  subst h
  have hclass : (a.setAside edge.target).class? edge.target =
      (a.class? edge.target).map fun c => { c with isMerged := true, roster := .empty } := by
    unfold setAside modifyClass class?
    rw [entity?_modifyEntity, if_pos rfl]
    cases a.entity? edge.target with
    | none => rfl
    | some e => exact e.class?_modifyClass _
  unfold inheritFrom
  rw [hclass]
  cases a.class? edge.target <;> rfl

theorem value_mergeOne_of_unmerged {e : Entity} (he : a.entity? id = some e)
    (hclass : e.class? = some c) (hmerged : c.isMerged = false) :
    (a.mergeOne id).value = let taken := (a.setAside id).takenOver e.separator c.roster c.bases
      taken.2.foldl (fun a entry => (a.fileInClass id entry.1 entry.2 false).value)
        ((a.setAside id).modifyClass id fun c => { c with roster := taken.1 }) := by
  let away := a.setAside id
  let step (state : Roster × Inlined) (edge : BaseEdge) : Noted (Roster × Inlined) :=
    if edge.target = id then do
      Noted.give (.listsItself (away.name id))
      return state
    else away.inheritFrom (away.separator id) state edge
  have hseparator : away.separator id = e.separator := by
    rw [(a.resembles_setAside id).separator]
    unfold separator
    rw [he]
    rfl
  -- An edge to the class itself is passed over, which is as if it brought nothing.
  have hloop : c.bases.foldl (fun state edge => (step state edge).value) (c.roster, []) =
      away.takenOver e.separator c.roster c.bases := by
    rw [← hseparator]
    congr 1
    funext state edge
    dsimp only [step]
    split
    · next htarget => exact (a.inheritFrom_setAside _ state htarget).symm
    · rfl
  rw [← hloop]
  unfold mergeOne
  rw [(a.class?_eq_some_iff id c).mpr ⟨e, he, hclass⟩]
  simp only [hmerged, Bool.false_eq_true, if_false, Noted.value_bind, Noted.value_foldlM]
  rfl

/-- A merge changes one class, to what it becomes by its bases. -/
theorem value_mergeOne (id : EntityId) :
    (a.mergeOne id).value =
      if a.isUnmerged id then a.modifyEntity id (·.mergedIn (a.setAside id)) else a := by
  unfold isUnmerged
  cases hclass : a.class? id with
  | none => simp [mergeOne, hclass]
  | some c =>
    cases hmerged : c.isMerged with
    | true => simp [mergeOne, hclass, hmerged]
    | false =>
      obtain ⟨e, he, hbody⟩ := (a.class?_eq_some_iff id c).mp hclass
      rw [a.value_mergeOne_of_unmerged he hbody hmerged, foldl_fileInClass,
        if_pos (by simp [hmerged])]
      unfold modifyClass
      rw [modifyEntity_modifyEntity]
      unfold setAside modifyClass
      rw [modifyEntity_modifyEntity]
      refine a.modifyEntity_congr id fun e' he' => ?_
      obtain rfl : e = e' := by
        rw [he] at he'
        exact Option.some.inj he'
      unfold Entity.mergedIn
      rw [hbody, Entity.modifyClass_modifyClass]
      rfl

theorem resembles_mergeOne (id : EntityId) : (a.mergeOne id).value.Resembles a := by
  rw [value_mergeOne]
  split
  · exact .modifyEntity a id fun e => e.outline_mergedIn _
  · exact .refl a

end

/-! ## What a class has taken over -/

theorem rosterOf_modifyEntity_of_ne (a : Atlas) {id' : EntityId} (h : id.slot ≠ id'.slot)
    (f : Entity → Entity) : (a.modifyEntity id f).rosterOf id' = a.rosterOf id' := by
  unfold rosterOf roster? class?
  rw [entity?_modifyEntity, if_neg h]

theorem rosterOf_of_class? {e : Entity} (he : a.entity? id = some e) (hclass : e.class? = some c) :
    a.rosterOf id = c.roster := by
  simp [rosterOf, roster?, class?, he, hclass]

theorem rosterOf_of_mergedIn {e : Entity} (hmerged : a.entity? id = some (e.mergedIn b))
    (hclass : e.class? = some c) :
    a.rosterOf id = (b.takenOver e.separator c.roster c.bases).1 := by
  have hbody := e.class?_mergedIn b
  rw [hclass] at hbody
  obtain ⟨c', hclass', hroster⟩ := Option.map_eq_some_iff.mp hbody
  rw [rosterOf_of_class? hmerged hclass']
  exact congrArg Prod.fst hroster

theorem takenOver_congr (h : a.Resembles b) (separator : String) (own : Roster)
    {edges : List BaseEdge}
    (hrosters : ∀ edge ∈ edges, a.rosterOf edge.target = b.rosterOf edge.target) :
    a.takenOver separator own edges = b.takenOver separator own edges := by
  refine List.foldl_ext _ _ _ fun state edge hedge => ?_
  have hpassage : a.passage separator edge = b.passage separator edge := by
    rw [passage, passage, h.name]
  rw [value_inheritFrom, value_inheritFrom, hrosters edge hedge, hpassage]
  exact List.foldl_ext _ _ _ fun state entry _ => by rw [h.inheritName]

theorem takenOver_append (a : Atlas) (separator : String) (own : Roster) (edges : List BaseEdge)
    (edge : BaseEdge) :
    a.takenOver separator own (edges ++ [edge]) =
      (a.inheritFrom separator (a.takenOver separator own edges) edge).value := by
  unfold takenOver
  rw [List.foldl_append, List.foldl_cons, List.foldl_nil]

/-- A view that came under a name along one of the edges, when the edges before it had brought what
they bring. -/
def Arrived (a : Atlas) (separator : String) (own : Roster) (edges : List BaseEdge) (name : String)
    (t : View) : Prop :=
  ∃ before edge after, edges = before ++ edge :: after ∧
    ∃ s ∈ (a.rosterOf edge.target).under name,
      a.Arrival (a.passage separator edge) ((a.takenOver separator own before).1.contains name) s t

/-- What holds of all that an edge brings under a name, holds of all that the edges bring, each of
its own edge and of what the edges before it have brought. -/
theorem takenOver_grown_of {name : String} {R : BaseEdge → Bool → View → Prop}
    (hR : ∀ edge isPresent t t', R edge isPresent t → t.Marked separator t' → R edge isPresent t')
    (hedge : ∀ state edge, View.Grown separator (R edge (state.1.contains name))
      (state.1.under name) ((a.inheritFrom separator state edge).value.1.under name)) (own : Roster)
    (edges : List BaseEdge) :
    View.Grown separator
      (fun t => ∃ before edge after, edges = before ++ edge :: after ∧
        R edge ((a.takenOver separator own before).1.contains name) t)
      (own.under name) ((a.takenOver separator own edges).1.under name) := by
  induction edges using List.reverseRecOn with
  | nil => exact .refl _ _ _
  | append_singleton edges edge ih =>
    have hbefore := ih.mono (Q := fun t => ∃ before edge' after,
      edges ++ [edge] = before ++ edge' :: after ∧
        R edge' ((a.takenOver separator own before).1.contains name) t) fun t ht => by
      obtain ⟨before, edge', after, rfl, ht⟩ := ht
      exact ⟨before, edge', after ++ [edge], by simp, ht⟩
    rw [takenOver_append]
    refine hbefore.trans ?_ ((hedge (a.takenOver separator own edges) edge).mono fun t ht => ?_)
    · rintro t t' ⟨before, edge', after, heq, ht⟩ hmarked
      exact ⟨before, edge', after, heq, hR _ _ t t' ht hmarked⟩
    · exact ⟨edges, edge, [], rfl, ht⟩

theorem takenOver_grown (a : Atlas) (separator : String) (own : Roster) (edges : List BaseEdge)
    (name : String) :
    View.Grown separator (a.Arrived separator own edges name) (own.under name)
      ((a.takenOver separator own edges).1.under name) := by
  refine takenOver_grown_of (R := fun edge isPresent t =>
    ∃ s ∈ (a.rosterOf edge.target).under name, a.Arrival (a.passage separator edge) isPresent s t)
    ?_ (fun state edge => a.inheritFrom_grown separator state edge name) own edges
  rintro edge isPresent t t' ⟨s, hs, harrival⟩ hmarked
  exact ⟨s, hs, harrival.marked hmarked⟩

end Atlas

/-! ## Inlined members -/

/-- The member of an inherited view, with the protection of the view. -/
def View.inherited? (v : View) : Option (MemberId × Protection) :=
  if v.isInherited then some (v.member, v.protection) else none

/-- The members of the inherited ones among some views. -/
def View.inheritedOf (views : List View) : Inlined :=
  views.filterMap View.inherited?

theorem View.mem_inheritedOf {entry : MemberId × Protection} :
    entry ∈ inheritedOf views ↔
      ∃ v ∈ views, v.isInherited = true ∧ v.member = entry.1 ∧ v.protection = entry.2 := by
  unfold inheritedOf inherited?
  rw [List.mem_filterMap]
  refine exists_congr fun v => and_congr_right fun _ => ?_
  cases v.isInherited <;> simp [Prod.ext_iff]

theorem View.Grown.inheritedOf_eq {before after : List View}
    (h : Grown separator (fun _ => False) before after) :
    inheritedOf after = inheritedOf before := by
  induction h with
  | added h => rw [List.eq_nil_iff_forall_not_mem.mpr h]
  | kept hmarked _ ih =>
    unfold inheritedOf at ih ⊢
    rw [List.filterMap_cons, ih, hmarked.eq]
    rfl

/-- The roster has an inherited view of the member, at the protection. -/
def Roster.Shows (roster : Roster) (entry : MemberId × Protection) : Prop :=
  ∃ name, entry ∈ View.inheritedOf (roster.under name)

namespace Atlas

variable {a : Atlas}

/-- Members are inlined, and the member is not a standard one. -/
def isInlinable (a : Atlas) (entry : MemberId × Protection) : Bool :=
  a.options.inlineInheritedMember && (a.member? entry.1).any fun m => !m.isStandard

theorem inlining_eq {id : MemberId} (hm : a.member? id = some m) (inlined : Inlined)
    (p : Protection) : a.inlining inlined id m p = inlined ++ [(id, p)].filter a.isInlinable := by
  unfold inlining isInlinable
  rw [List.filter_singleton, hm, Option.any_some]
  cases a.options.inlineInheritedMember && !m.isStandard <;> simp

/-- What came to a name is noted, as far as it is inlined. -/
def Notes (a : Atlas) (state state' : List View × Inlined) : Prop :=
  ∃ added, View.inheritedOf state'.1 = View.inheritedOf state.1 ++ added ∧
    state'.2 = state.2 ++ added.filter a.isInlinable

theorem Notes.refl (a : Atlas) (state : List View × Inlined) : a.Notes state state :=
  ⟨[], by simp, by simp⟩

theorem Notes.trans {state mid state' : List View × Inlined} (h : a.Notes state mid)
    (h' : a.Notes mid state') : a.Notes state state' := by
  obtain ⟨added, hviews, hnoted⟩ := h
  obtain ⟨added', hviews', hnoted'⟩ := h'
  exact ⟨added ++ added', by rw [hviews', hviews, List.append_assoc],
    by rw [hnoted', hnoted, List.filter_append, List.append_assoc]⟩

theorem Notes.snoc {id : MemberId} (hm : a.member? id = some m) {state : List View × Inlined}
    (hviews : View.inheritedOf views = View.inheritedOf state.1) {v : View} {p : Protection}
    (hv : v.inherited? = some (id, p)) :
    a.Notes state (views ++ [v], a.inlining state.2 id m p) := by
  refine ⟨[(id, p)], ?_, inlining_eq hm state.2 p⟩
  rw [← hviews]
  simp [View.inheritedOf, hv]

section

variable (a : Atlas) (passage : Passage) (state : List View × Inlined) (incoming : View)

theorem notes_inheritAmong : a.Notes state (a.inheritAmong passage state incoming).value := by
  unfold inheritAmong
  cases hm : a.member? incoming.member with
  | none => exact .refl a state
  | some source =>
    have hviews := (a.confront_grown passage incoming source (fun _ => False) state.1).inheritedOf_eq
    dsimp only
    rw [Noted.value_bind]
    split
    · exact ⟨[], by rw [List.append_nil]; exact hviews, by simp⟩
    · refine Notes.snoc hm hviews ?_
      unfold passedAmong
      dsimp only
      split <;> split <;> rfl

theorem notes_inheritNew : a.Notes state (a.inheritNew passage state incoming) := by
  unfold inheritNew
  cases hm : a.member? incoming.member with
  | none => exact .refl a state
  | some source =>
    dsimp only
    split
    · exact .refl a state
    · exact Notes.snoc hm rfl rfl

theorem notes_inheritName (state : Roster × Inlined) (name : String) (incoming : List View) :
    a.Notes (state.1.under name, state.2)
      ((a.inheritName passage state (name, incoming)).value.1.under name,
        (a.inheritName passage state (name, incoming)).value.2) := by
  obtain ⟨roster, inlined⟩ := state
  unfold inheritName Roster.under
  dsimp only
  cases hget : roster.get? name with
  | some present =>
    simp only [Noted.value_bind, Noted.value_foldlM, Noted.value_pure, Dict.get?_insert, if_true,
      Option.getD_some]
    exact foldl_kept
      (fun _ s h => h.trans (a.notes_inheritAmong passage _ s)) incoming (.refl a _)
  | none =>
    have hnotes : a.Notes ([], inlined) (incoming.foldl (a.inheritNew passage) ([], inlined)) :=
      foldl_kept
        (fun _ s h => h.trans (a.notes_inheritNew passage _ s)) incoming (.refl a _)
    simp only [Noted.value_pure, Option.getD_none]
    generalize incoming.foldl (a.inheritNew passage) ([], inlined) = result at hnotes
    split
    · next hempty =>
      obtain ⟨views, noted⟩ := result
      obtain rfl := List.isEmpty_iff.mp hempty
      rwa [hget]
    · rw [Dict.get?_insert, if_pos rfl]
      exact hnotes

end

/-- What is noted is what the roster shows to be inherited beside what it showed at first, as far as
it is inlined. -/
def Reflects (a : Atlas) (own : Roster) (state : Roster × Inlined) : Prop :=
  ∀ entry, entry ∈ state.2 ∨ a.isInlinable entry = true ∧ own.Shows entry ↔
    a.isInlinable entry = true ∧ state.1.Shows entry

/-- What is noted for inlining keeps up with the roster. -/
theorem Reflects.inheritName {own : Roster} {state : Roster × Inlined} (h : a.Reflects own state)
    (passage : Passage) (entry : String × List View) :
    a.Reflects own (a.inheritName passage state entry).value := by
  obtain ⟨name, incoming⟩ := entry
  obtain ⟨added, hviews, hnoted⟩ := a.notes_inheritName passage state name incoming
  have hother {k : String} (hk : k ≠ name) :
      (a.inheritName passage state (name, incoming)).value.1.under k = state.1.under k := by
    rw [Roster.under, a.get?_inheritName_of_ne passage state hk incoming]
    rfl
  intro x
  have hshows : (a.inheritName passage state (name, incoming)).value.1.Shows x ↔
      state.1.Shows x ∨ x ∈ added := by
    constructor
    · rintro ⟨k, hx⟩
      by_cases hk : k = name
      · subst hk
        rw [hviews] at hx
        exact (List.mem_append.mp hx).imp_left fun hx => ⟨k, hx⟩
      · rw [hother hk] at hx
        exact .inl ⟨k, hx⟩
    · rintro (⟨k, hx⟩ | hx)
      · by_cases hk : k = name
        · subst hk
          exact ⟨k, hviews ▸ List.mem_append_left _ hx⟩
        · exact ⟨k, (hother hk).symm ▸ hx⟩
      · exact ⟨name, hviews ▸ List.mem_append_right _ hx⟩
  have hbefore := h x
  rw [hnoted, List.mem_append, List.mem_filter]
  tauto

theorem reflects_takenOver (a : Atlas) (separator : String) (own : Roster)
    (edges : List BaseEdge) : a.Reflects own (a.takenOver separator own edges) := by
  refine foldl_kept (fun state edge h => ?_) edges fun entry => by simp
  rw [value_inheritFrom]
  exact foldl_kept (fun _ entry h => h.inheritName _ entry) _ h

end Atlas

end SymbolAtlas
