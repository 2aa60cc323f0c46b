import Mathlib.Data.List.Induction
import Mathlib.Data.List.Nodup
import SymbolAtlas.Proofs.Atlas.Operations
import SymbolAtlas.Proofs.Inheritance.Arrival

/-!
# Groups of inherited members

The inherited members of a class are collected by owner and the groups sorted by rank, which is the
distance of the owner and then its name. Which groups there are, and which members each holds, is
read off the roster. The sort is stable: groups of one rank stay in the order in which they come out
of the table that holds them, and this order is not determined. So the sorted list is the same for
all orders only if no two groups have one rank, which two instances of templates of one local name
can have.
-/

set_option autoImplicit false

namespace SymbolAtlas

variable {α : Type} {groups' : List InheritedGroup}

/-! ## Firsts -/

theorem eraseDups_concat [BEq α] [LawfulBEq α] (l : List α) (x : α) :
    (l ++ [x]).eraseDups = if x ∈ l.eraseDups then l.eraseDups else l.eraseDups ++ [x] := by
  rw [List.eraseDups_append]
  by_cases hx : x ∈ l
  · simp [List.removeAll, hx]
  · simp [List.removeAll, hx, List.eraseDups_cons]

theorem nodup_eraseDups [BEq α] [LawfulBEq α] (l : List α) : l.eraseDups.Nodup := by
  induction l using List.reverseRecOn with
  | nil => simp
  | append_singleton l x ih =>
    rw [eraseDups_concat]
    split
    next => exact ih
    next hx => exact List.nodup_append.mpr ⟨ih, by simp, fun y hy z hz => by
      rintro rfl
      exact hx (List.mem_singleton.mp hz ▸ hy)⟩

namespace Atlas

variable {a : Atlas} {id : EntityId}
variable {views : List View} {groups : List InheritedGroup} {owner : EntityId}

/-! ## What is collected -/

/-- The class that declares the member of a view. -/
def ownerOf? (a : Atlas) (v : View) : Option EntityId :=
  (a.member? v.member).bind (·.owner)

/-- The inherited views of a class, in the order of its roster. -/
def inheritedViews (a : Atlas) (id : EntityId) : List View :=
  (a.rosterOf id).views.filter (·.isInherited)

/-- The owners of the members of some views, each where it comes up first. -/
def ownersOf (a : Atlas) (views : List View) : List EntityId :=
  (views.filterMap a.ownerOf?).eraseDups

/-- The members of some views that an owner declares, each where it comes up first. -/
def membersFrom (a : Atlas) (views : List View) (owner : EntityId) : List MemberId :=
  ((views.filter fun v => a.ownerOf? v = some owner).map (·.member)).eraseDups

/-- The groups of some views, in the order in which the owners come up. -/
def groupsOf (a : Atlas) (views : List View) : List InheritedGroup :=
  (a.ownersOf views).map fun owner => ⟨owner, a.membersFrom views owner⟩

theorem mem_ownersOf : owner ∈ a.ownersOf views ↔ ∃ v ∈ views, a.ownerOf? v = some owner := by
  rw [ownersOf, List.mem_eraseDups, List.mem_filterMap]

theorem membersFrom_concat (a : Atlas) (views : List View) (v : View) (owner : EntityId) :
    a.membersFrom (views ++ [v]) owner =
      if a.ownerOf? v = some owner then
        (if v.member ∈ a.membersFrom views owner then a.membersFrom views owner
          else a.membersFrom views owner ++ [v.member])
      else a.membersFrom views owner := by
  by_cases howner : a.ownerOf? v = some owner
  · have hviews : (views ++ [v]).filter (fun v => a.ownerOf? v = some owner) =
        views.filter (fun v => a.ownerOf? v = some owner) ++ [v] := by
      simp [howner]
    rw [if_pos howner, membersFrom, hviews, List.map_append, List.map_singleton, eraseDups_concat]
    rfl
  · simp [membersFrom, howner]

theorem membersFrom_eq_nil (h : owner ∉ a.ownersOf views) : a.membersFrom views owner = [] := by
  have hnone : views.filter (fun v => a.ownerOf? v = some owner) = [] := by
    refine List.filter_eq_nil_iff.mpr fun v hv howner => ?_
    exact h (mem_ownersOf.mpr ⟨v, hv, of_decide_eq_true howner⟩)
  rw [membersFrom, hnone]
  rfl

theorem addToGroup_map {m : MemberId} {owners : List EntityId} (hnodup : owners.Nodup)
    (members : EntityId → List MemberId) : addToGroup owner m (owners.map fun o => ⟨o, members o⟩) =
      if owner ∈ owners then
        owners.map fun o => ⟨o, if o = owner then
          (if m ∈ members o then members o else members o ++ [m]) else members o⟩
      else (owners.map fun o => ⟨o, members o⟩) ++ [⟨owner, [m]⟩] := by
  induction owners with
  | nil => simp [addToGroup]
  | cons o owners ih =>
    obtain ⟨ho, hnodup⟩ := List.nodup_cons.mp hnodup
    rw [List.map_cons, addToGroup]
    by_cases h : o = owner
    · subst h
      have hrest : ∀ o' ∈ owners, (⟨o', if o' = o then
          (if m ∈ members o' then members o' else members o' ++ [m]) else members o'⟩ :
            InheritedGroup) = ⟨o', members o'⟩ := by
        intro o' ho'
        have hne : o' ≠ o := by
          rintro rfl
          exact ho ho'
        rw [if_neg hne]
      by_cases hm : m ∈ members o
      · simp [hm, List.map_congr_left hrest]
      · simp [hm, List.map_congr_left hrest]
    · rw [if_neg h, ih hnodup]
      by_cases howner : owner ∈ owners
      · simp [howner, h]
      · simp [howner, Ne.symm h]

/-- One more view goes into the group of its owner. -/
theorem groupsOf_concat (a : Atlas) (views : List View) (v : View) :
    a.groupsOf (views ++ [v]) =
      match a.ownerOf? v with
      | some owner => addToGroup owner v.member (a.groupsOf views)
      | none => a.groupsOf views := by
  cases howner : a.ownerOf? v with
  | none => simp [groupsOf, ownersOf, membersFrom_concat, howner]
  | some owner =>
    have howners : a.ownersOf (views ++ [v]) =
        if owner ∈ a.ownersOf views then a.ownersOf views else a.ownersOf views ++ [owner] := by
      simp [ownersOf, howner, eraseDups_concat]
    have hnodup : (a.ownersOf views).Nodup := nodup_eraseDups _
    simp only [groupsOf]
    rw [addToGroup_map hnodup, howners]
    by_cases hmem : owner ∈ a.ownersOf views
    · rw [if_pos hmem, if_pos hmem]
      refine List.map_congr_left fun o _ => ?_
      rw [membersFrom_concat, howner]
      simp only [Option.some.injEq, eq_comm]
    · -- The owner comes up with this view, so its group holds the one member.
      rw [if_neg hmem, if_neg hmem, List.map_append]
      refine congrArg₂ (· ++ ·) (List.map_congr_left fun o ho => ?_) ?_
      · have hne : owner ≠ o := by
          rintro rfl
          exact hmem ho
        rw [membersFrom_concat, howner, if_neg fun h => hne (Option.some.inj h)]
      · simp [membersFrom_concat, howner, membersFrom_eq_nil hmem]

theorem ownerGroups_eq (a : Atlas) (id : EntityId) :
    a.ownerGroups id = a.groupsOf (a.inheritedViews id) := by
  have hfold (views : List View) :
      views.foldl (fun groups view =>
        match (a.member? view.member).bind (·.owner) with
        | some owner => addToGroup owner view.member groups
        | none => groups) [] = a.groupsOf views := by
    induction views using List.reverseRecOn with
    | nil => rfl
    | append_singleton views v ih =>
      rw [List.foldl_append, ih, groupsOf_concat]
      rfl
  simp only [ownerGroups, inheritedViews, rosterOf]
  cases a.roster? id with
  | none => rfl
  | some roster => exact hfold _

theorem mem_groupsOf {g : InheritedGroup} :
    g ∈ a.groupsOf views ↔
      (∃ v ∈ views, a.ownerOf? v = some g.owner) ∧ g.members = a.membersFrom views g.owner := by
  rw [groupsOf, List.mem_map, ← mem_ownersOf]
  constructor
  · rintro ⟨owner, howner, rfl⟩
    exact ⟨howner, rfl⟩
  · rintro ⟨howner, hmembers⟩
    exact ⟨g.owner, howner, by rw [← hmembers]⟩

theorem nodup_owners_groupsOf (views : List View) : ((a.groupsOf views).map (·.owner)).Nodup := by
  have howners : (a.groupsOf views).map (·.owner) = a.ownersOf views := by
    simp [groupsOf, Function.comp_def]
  rw [howners]
  exact nodup_eraseDups _

/-! ## What is sorted -/

theorem rankPrecedes_iff {r s : Nat × String} :
    rankPrecedes r s = true ↔ r.1 < s.1 ∨ r.1 = s.1 ∧ r.2 ≤ s.2 := by
  simp [rankPrecedes]

theorem rankPrecedes_trans (r s t : Nat × String) (hrs : rankPrecedes r s = true)
    (hst : rankPrecedes s t = true) : rankPrecedes r t = true := by
  rw [rankPrecedes_iff] at hrs hst ⊢
  rcases hrs with hrs | ⟨hrs, hname⟩
  · omega
  · rcases hst with hst | ⟨hst, hname'⟩
    · omega
    · exact .inr ⟨hrs.trans hst, String.le_trans hname hname'⟩

theorem rankPrecedes_total (r s : Nat × String) : (rankPrecedes r s || rankPrecedes s r) = true := by
  rw [Bool.or_eq_true, rankPrecedes_iff, rankPrecedes_iff]
  rcases Nat.lt_trichotomy r.1 s.1 with h | h | h
  · exact .inl (.inl h)
  · rcases String.le_total r.2 s.2 with hname | hname
    · exact .inl (.inr ⟨h, hname⟩)
    · exact .inr (.inr ⟨h.symm, hname⟩)
  · exact .inr (.inl h)

theorem rankPrecedes_antisymm {r s : Nat × String} (hrs : rankPrecedes r s = true)
    (hsr : rankPrecedes s r = true) : r = s := by
  rw [rankPrecedes_iff] at hrs hsr
  obtain ⟨h, hname⟩ : r.1 = s.1 ∧ r.2 = s.2 := by
    rcases hrs with hrs | ⟨hrs, hname⟩
    · omega
    · rcases hsr with hsr | ⟨-, hname'⟩
      · omega
      · exact ⟨hrs, String.le_antisymm hname hname'⟩
  exact Prod.ext h hname

theorem groupPrecedes_trans (a : Atlas) (id : EntityId) (g h k : InheritedGroup)
    (hgh : a.groupPrecedes id g h = true) (hhk : a.groupPrecedes id h k = true) :
    a.groupPrecedes id g k = true :=
  rankPrecedes_trans _ _ _ hgh hhk

theorem groupPrecedes_total (a : Atlas) (id : EntityId) (g h : InheritedGroup) :
    (a.groupPrecedes id g h || a.groupPrecedes id h g) = true :=
  rankPrecedes_total _ _

theorem pairwise_mergeSort_groups (groups : List InheritedGroup) :
    (groups.mergeSort (a.groupPrecedes id)).Pairwise
      fun g h => a.groupPrecedes id g h = true :=
  List.pairwise_mergeSort (a.groupPrecedes_trans id) (a.groupPrecedes_total id) groups

theorem mergeSort_groups_eq (h : groups.Perm groups')
    (hranks : ∀ g ∈ groups, ∀ g' ∈ groups, a.groupRank id g = a.groupRank id g' → g = g') :
    groups.mergeSort (a.groupPrecedes id) = groups'.mergeSort (a.groupPrecedes id) := by
  refine List.Perm.eq_of_pairwise (fun g g' hg hg' hle hle' => ?_)
    (pairwise_mergeSort_groups groups) (pairwise_mergeSort_groups groups')
    (((List.mergeSort_perm _ _).trans h).trans (List.mergeSort_perm _ _).symm)
  exact hranks g ((List.mergeSort_perm _ _).subset hg)
    g' (h.symm.subset ((List.mergeSort_perm _ _).subset hg')) (rankPrecedes_antisymm hle hle')

/-- A stable sort leaves the groups of one rank in the order in which it finds them. -/
theorem filter_mergeSort_groups (groups : List InheritedGroup) (rank : Nat × String) :
    (groups.mergeSort (a.groupPrecedes id)).filter (a.groupRank id · = rank) =
      groups.filter (a.groupRank id · = rank) := by
  have hsorted : (groups.filter (a.groupRank id · = rank)).Pairwise
      fun g h => a.groupPrecedes id g h = true := by
    refine List.pairwise_of_forall_mem_list fun g hg h hh => ?_
    have hg := of_decide_eq_true (List.mem_filter.mp hg).2
    have hh := of_decide_eq_true (List.mem_filter.mp hh).2
    simp [groupPrecedes, hg, hh, rankPrecedes]
  have hsublist := (List.sublist_mergeSort (a.groupPrecedes_trans id) (a.groupPrecedes_total id)
    hsorted List.filter_sublist).filter (a.groupRank id · = rank)
  rw [List.filter_filter] at hsublist
  simp only [Bool.and_self] at hsublist
  exact (hsublist.eq_of_length
    ((List.mergeSort_perm groups (a.groupPrecedes id)).filter _).length_eq.symm).symm

/-- If all orders of some groups are sorted to one list, no two of the groups have one rank: each of
them would come first among those of its rank if it came out of the table first. -/
theorem eq_of_mergeSort_groups (h : ∀ e e' : Enumeration groups,
      e.order.mergeSort (a.groupPrecedes id) = e'.order.mergeSort (a.groupPrecedes id))
    {g g' : InheritedGroup} (hg : g ∈ groups) (hg' : g' ∈ groups)
    (hrank : a.groupRank id g = a.groupRank id g') : g = g' := by
  have hfilter := congrArg (List.filter (a.groupRank id · = a.groupRank id g))
    (h ⟨g :: groups.erase g, (List.perm_cons_erase hg).symm⟩
      ⟨g' :: groups.erase g', (List.perm_cons_erase hg').symm⟩)
  rw [filter_mergeSort_groups, filter_mergeSort_groups, List.filter_cons_of_pos (by simp),
    List.filter_cons_of_pos (by simp [hrank])] at hfilter
  exact (List.cons.inj hfilter).1

theorem map_rank_mergeSort_groups (h : groups.Perm groups') :
    (groups.mergeSort (a.groupPrecedes id)).map (a.groupRank id) =
      (groups'.mergeSort (a.groupPrecedes id)).map (a.groupRank id) := by
  have hsorted (groups : List InheritedGroup) :
      ((groups.mergeSort (a.groupPrecedes id)).map (a.groupRank id)).Pairwise
        fun r s => rankPrecedes r s = true :=
    List.pairwise_map.mpr (pairwise_mergeSort_groups groups)
  refine List.Perm.eq_of_pairwise (fun r s _ _ => rankPrecedes_antisymm) (hsorted groups)
    (hsorted groups') ?_
  exact (((List.mergeSort_perm _ _).trans h).trans (List.mergeSort_perm _ _).symm).map _

/-! ## Groups in order -/

/-- The groups of inherited members, whatever order they come out of their table in. There is one for
each owner of an inherited member, and it holds the members that the owner declares, where they come
up first in the roster. The groups stand in the order of distance and then of name, and the distances
and names are the same for all orders. Groups that agree in both stand as they come out of the table,
so the list is the same for all orders exactly if no two groups do. -/
theorem inheritedGroups_enumerated (a : Atlas) (id : EntityId) :
    (∀ enumeration : Enumeration (a.ownerGroups id),
      let groups := a.inheritedGroups id enumeration
      (∀ g, g ∈ groups ↔
        (∃ v ∈ a.inheritedViews id, a.ownerOf? v = some g.owner) ∧
          g.members = a.membersFrom (a.inheritedViews id) g.owner) ∧
      (groups.map (·.owner)).Nodup ∧
      (groups.Pairwise fun g h =>
        (a.groupRank id g).1 < (a.groupRank id h).1 ∨
          (a.groupRank id g).1 = (a.groupRank id h).1 ∧ a.name g.owner ≤ a.name h.owner) ∧
      ∀ rank, groups.filter (a.groupRank id · = rank) =
        enumeration.order.filter (a.groupRank id · = rank)) ∧
    (∀ e e' : Enumeration (a.ownerGroups id),
      (a.inheritedGroups id e).map (a.groupRank id) =
        (a.inheritedGroups id e').map (a.groupRank id)) ∧
    ((∀ e e' : Enumeration (a.ownerGroups id),
      a.inheritedGroups id e = a.inheritedGroups id e') ↔
      ∀ g ∈ a.ownerGroups id, ∀ h ∈ a.ownerGroups id,
        a.groupRank id g = a.groupRank id h → g = h) := by
  have hcommon (e e' : Enumeration (a.ownerGroups id)) : e.order.Perm e'.order :=
    e.perm.trans e'.perm.symm
  have hperm (e : Enumeration (a.ownerGroups id)) :
      (a.inheritedGroups id e).Perm (a.ownerGroups id) := (List.mergeSort_perm _ _).trans e.perm
  refine ⟨fun e => ⟨fun g => ?_, ?_, ?_, filter_mergeSort_groups e.order⟩,
    fun e e' => map_rank_mergeSort_groups (hcommon e e'), fun h g hg g' hg' => ?_, fun h e e' => ?_⟩
  · rw [(hperm e).mem_iff, ownerGroups_eq]
    exact mem_groupsOf
  · rw [((hperm e).map _).nodup_iff, ownerGroups_eq]
    exact nodup_owners_groupsOf _
  · exact (pairwise_mergeSort_groups _).imp fun h => rankPrecedes_iff.mp h
  · exact eq_of_mergeSort_groups h hg hg'
  · exact mergeSort_groups_eq (hcommon e e') fun g hg g' hg' =>
      h g (e.perm.subset hg) g' (e.perm.subset hg')

/-- Two templates of one local name in two scopes, an instance of each, and a class derived from the
instances. -/
def namesakes : List Operation :=
  [.register "n2::A" .classKind {}, .register "n1::A" .classKind {},
    .setFormals ⟨1⟩ ["class T"], .setFormals ⟨2⟩ ["class T"],
    .addMember (some ⟨1⟩) { name := "f", kind := .function },
    .addMember (some ⟨2⟩) { name := "g", kind := .function },
    .insertMember ⟨1⟩ ⟨1⟩, .insertMember ⟨2⟩ ⟨2⟩,
    .instantiate 1 "<int>", .instantiate 2 "<int>", .register "D" .classKind {},
    .insertBase 5 3 { target := ⟨3⟩ }, .insertBase 5 4 { target := ⟨4⟩ }, .mergeAll]

/-- The instances have one name and are equally far from the class, so that the order of the groups
is the one in which they come out of the table. -/
theorem inheritedGroups_namesakes :
    let a := Operation.performAll (.empty {}) namesakes
    (a.name ⟨3⟩, a.name ⟨4⟩) = ("A<int>", "A<int>") ∧
      ((a.distance ⟨5⟩ ⟨3⟩).value, (a.distance ⟨5⟩ ⟨4⟩).value) = (some 1, some 1) ∧
      ∃ e e' : Enumeration (a.ownerGroups ⟨5⟩),
        a.inheritedGroups ⟨5⟩ e = [⟨⟨3⟩, [⟨3⟩]⟩, ⟨⟨4⟩, [⟨4⟩]⟩] ∧
        a.inheritedGroups ⟨5⟩ e' = [⟨⟨4⟩, [⟨4⟩]⟩, ⟨⟨3⟩, [⟨3⟩]⟩] := by
  intro a
  have hgroups : a.ownerGroups ⟨5⟩ = [⟨⟨3⟩, [⟨3⟩]⟩, ⟨⟨4⟩, [⟨4⟩]⟩] := by decide +kernel
  have hties : a.groupPrecedes ⟨5⟩ ⟨⟨3⟩, [⟨3⟩]⟩ ⟨⟨4⟩, [⟨4⟩]⟩ = true ∧
      a.groupPrecedes ⟨5⟩ ⟨⟨4⟩, [⟨4⟩]⟩ ⟨⟨3⟩, [⟨3⟩]⟩ = true := by
    decide +kernel
  refine ⟨by decide +kernel, by decide +kernel, ⟨_, .of_eq hgroups.symm⟩,
    ⟨_, (List.Perm.swap _ _ _).trans (.of_eq hgroups.symm)⟩, ?_, ?_⟩
  · exact List.mergeSort_of_pairwise (List.pairwise_pair.mpr hties.1)
  · exact List.mergeSort_of_pairwise (List.pairwise_pair.mpr hties.2)

end Atlas

end SymbolAtlas
