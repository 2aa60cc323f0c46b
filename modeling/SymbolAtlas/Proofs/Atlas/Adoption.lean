import Mathlib.Data.List.Forall2
import SymbolAtlas.Atlas.Extension
import SymbolAtlas.Proofs.Inheritance.Merging

/-!
# Taking over members

A member that is added comes behind the others. A class that takes in a category adds a copy of each
member that the category has under a name of its own, and relates the members under the names that
both have. Whatever becomes of the other members on the way, nothing changes but what they are
related to.
-/

set_option autoImplicit false

namespace SymbolAtlas

variable {v w : View} {m : Member} {views : List View} {entry : String × List View}

/-- Two records of one declaration. -/
structure Member.Mirrors (m m' : Member) : Prop where
  name : m'.name = m.name
  kind : m'.kind = m.kind
  protection : m'.protection = m.protection
  virtualness : m'.virtualness = m.virtualness
  typeText : m'.typeText = m.typeText
  argsText : m'.argsText = m.argsText
  signature : m'.signature = m.signature
  isHidden : m'.flags.isHidden = m.flags.isHidden

theorem Member.exists_inClassNamed_eq (m : Member) (className : String) :
    ∃ flags, flags.isHidden = m.flags.isHidden ∧ m.inClassNamed className = { m with flags } := by
  unfold inClassNamed
  split
  · exact ⟨m.flags, rfl, rfl⟩
  · dsimp only
    split
    · exact ⟨{ m.flags with isConstructor := true }, rfl, rfl⟩
    · split
      · exact ⟨{ m.flags with isDestructor := true }, rfl, rfl⟩
      · exact ⟨m.flags, rfl, rfl⟩

theorem exists_of_mem_forall₂ {α β : Type} {R : α → β → Prop} {xs : List α} {ys : List β}
    (h : List.Forall₂ R xs ys) {y : β} (hy : y ∈ ys) : ∃ x ∈ xs, R x y := by
  induction h with
  | nil => cases hy
  | cons hr _ ih =>
    rcases List.mem_cons.mp hy with rfl | hy
    · exact ⟨_, List.mem_cons_self, hr⟩
    · obtain ⟨x, hx, hxy⟩ := ih hy
      exact ⟨x, List.mem_cons_of_mem _ hx, hxy⟩

namespace Atlas

variable {a b c : Atlas}

/-! ## Adding and changing a member -/

theorem exists_addMember_eq (a : Atlas) (owner : Option EntityId) (m : Member) :
    ∃ language flags, flags.isHidden = m.flags.isHidden ∧ a.addMember owner m =
      ({ a with
        members := a.members.push
          { m with id := .ofSlot a.members.size, owner, language, flags }
        memberNames := a.memberNames.append m.name (.ofSlot a.members.size) },
        .ofSlot a.members.size) := by
  unfold addMember
  cases owner.bind a.entity? with
  | none => exact ⟨m.language, m.flags, rfl, rfl⟩
  | some e =>
    dsimp only
    generalize hspoken : (if m.language == .unknown then
      { m with id := .ofSlot a.members.size, owner, language := e.language }
      else { m with id := .ofSlot a.members.size, owner } : Member) = spoken
    obtain ⟨language, rfl⟩ : ∃ language, spoken =
        { m with id := .ofSlot a.members.size, owner, language } := by
      rw [← hspoken]
      split
      · exact ⟨e.language, rfl⟩
      · exact ⟨m.language, rfl⟩
    split
    · obtain ⟨flags, hhidden, hflags⟩ := Member.exists_inClassNamed_eq
        { m with id := .ofSlot a.members.size, owner, language } e.localName
      rw [hflags]
      exact ⟨language, flags, hhidden, rfl⟩
    · exact ⟨language, m.flags, rfl, rfl⟩

theorem member?_push (a : Atlas) {b : Atlas} (h : b.members = a.members.push m) (id : MemberId) :
    b.member? id = if id.slot = a.members.size then some m else a.member? id := by
  unfold member?
  rw [h, Array.getElem?_push]

theorem member?_modifyMember (a : Atlas) (id id' : MemberId) (f : Member → Member) :
    (a.modifyMember id f).member? id' =
      if id.slot = id'.slot then (a.member? id').map f else a.member? id' := by
  unfold modifyMember member?
  rw [Array.getElem?_modify]

theorem slot_lt_of_member? {id : MemberId} (h : a.member? id = some m) : id.slot < a.members.size :=
  (Array.getElem?_eq_some_iff.mp h).1

theorem addMember_eq (a : Atlas) (owner : Option EntityId) (m : Member) :
    ∃ m', (a.addMember owner m).1.members = a.members.push m' ∧
      (a.addMember owner m).1.entities = a.entities ∧
      (a.addMember owner m).2 = .ofSlot a.members.size ∧ m'.id = .ofSlot a.members.size ∧
      m.Mirrors m' ∧ m'.owner = owner := by
  obtain ⟨language, flags, hhidden, heq⟩ := a.exists_addMember_eq owner m
  rw [heq]
  exact ⟨_, rfl, rfl, rfl, rfl, ⟨rfl, rfl, rfl, rfl, rfl, rfl, rfl, hhidden⟩, rfl⟩

/-- Every member stands where its number says. -/
def MembersInPlace (a : Atlas) : Prop :=
  ∀ id m, a.member? id = some m → m.id = .ofSlot id.slot

/-! ## Members that are related -/

/-- Members in `touched` slots may be related to others, and members are added; nothing else
happens. -/
structure Relates (a : Atlas) (touched : List Nat) (b : Atlas) : Prop where
  entities : b.entities = a.entities
  options : b.options = a.options
  kept : ∀ id m, a.member? id = some m → ∃ category relation,
    b.member? id = some { m with category, categoryRelation := relation }
  untouched : ∀ id, id.slot < a.members.size → id.slot ∉ touched → b.member? id = a.member? id
  place : a.MembersInPlace → b.MembersInPlace
  named : ∀ name id, id ∈ a.membersNamed name → id ∈ b.membersNamed name

namespace Relates

variable {touched touched' : List Nat}

theorem refl (a : Atlas) : a.Relates [] a :=
  ⟨rfl, rfl, fun _ m hm => ⟨m.category, m.categoryRelation, hm⟩, fun _ _ _ => rfl, id,
    fun _ _ hid => hid⟩

theorem size_le (h : a.Relates touched b) : a.members.size ≤ b.members.size := by
  by_contra hlt
  have hb : b.members.size < a.members.size := Nat.not_le.mp hlt
  obtain ⟨_, _, hm⟩ := h.kept (.ofSlot b.members.size) _ (Array.getElem?_eq_getElem hb)
  exact Nat.lt_irrefl _ (slot_lt_of_member? hm)

theorem trans (h : a.Relates touched b) (h' : b.Relates touched' c) :
    a.Relates (touched ++ touched') c where
  entities := h'.entities.trans h.entities
  options := h'.options.trans h.options
  kept id m hm := by
    obtain ⟨_, _, hb⟩ := h.kept id m hm
    obtain ⟨category, relation, hc⟩ := h'.kept id _ hb
    exact ⟨category, relation, hc⟩
  untouched id hlt hnot := by
    rw [List.mem_append, not_or] at hnot
    rw [h'.untouched id (Nat.lt_of_lt_of_le hlt h.size_le) hnot.2, h.untouched id hlt hnot.1]
  place hplace := h'.place (h.place hplace)
  named name id hid := h'.named name id (h.named name id hid)

theorem mono (h : a.Relates touched b) (hsub : ∀ slot ∈ touched, slot ∈ touched') :
    a.Relates touched' b :=
  { h with untouched := fun id hlt hnot => h.untouched id hlt fun hin => hnot (hsub _ hin) }

theorem modifyMember (a : Atlas) (id : MemberId) {f : Member → Member}
    (hf : ∀ m, ∃ category relation, f m = { m with category, categoryRelation := relation }) :
    a.Relates [id.slot] (a.modifyMember id f) where
  entities := rfl
  options := rfl
  kept id' m hm := by
    rw [member?_modifyMember, hm]
    split
    · obtain ⟨category, relation, hfm⟩ := hf m
      exact ⟨category, relation, congrArg some hfm⟩
    · exact ⟨_, _, rfl⟩
  untouched id' _ hnot := by
    rw [member?_modifyMember, if_neg fun heq => hnot (List.mem_singleton.mpr heq.symm)]
  place hplace id' m hm := by
    rw [member?_modifyMember] at hm
    split at hm
    · obtain ⟨m', hm', rfl⟩ := Option.map_eq_some_iff.mp hm
      obtain ⟨category, relation, hfm⟩ := hf m'
      rw [hfm]
      exact hplace id' m' hm'
    · exact hplace id' m hm
  named _ _ hid := hid

theorem addMember (a : Atlas) (owner : Option EntityId) (m : Member) :
    a.Relates [] (a.addMember owner m).1 := by
  obtain ⟨language, flags, -, heq⟩ := a.exists_addMember_eq owner m
  have hold (id : MemberId) (hlt : id.slot < a.members.size) :
      (a.addMember owner m).1.member? id = a.member? id := by
    rw [a.member?_push rfl, if_neg (Nat.ne_of_lt hlt)]
  refine ⟨by rw [heq], by rw [heq], fun id m' hm' => ?_, fun id hlt _ => hold id hlt,
    fun hplace id m' hm' => ?_, fun name id hid => ?_⟩
  · exact ⟨_, _, (hold id (slot_lt_of_member? hm')).trans hm'⟩
  · rw [heq, a.member?_push rfl] at hm'
    split at hm'
    · next hslot =>
      cases hm'
      rw [hslot]
    · exact hplace id m' hm'
  · rw [heq]
    unfold membersNamed at hid ⊢
    rw [Dict.get?_append]
    split
    · next hname =>
      subst hname
      exact List.mem_append_left _ hid
    · exact hid

end Relates

/-! ## Copies -/

/-- The slots of the members that views show. -/
def slots (views : List View) : List Nat :=
  views.map (·.member.slot)

theorem relates_relate (a : Atlas) (category : EntityId) (own theirs : List View) :
    a.Relates (slots own ++ slots theirs) (a.relate category own theirs) := by
  unfold relate
  split
  · next v w hv hw =>
    have hboth := (Relates.modifyMember a v.member (f := fun m =>
      { m with category := some category, categoryRelation := some w.member })
      fun m => ⟨_, _, rfl⟩).trans (Relates.modifyMember _ w.member (f := fun m =>
        { m with categoryRelation := some v.member }) fun m => ⟨m.category, _, rfl⟩)
    refine hboth.mono fun slot hslot => ?_
    rw [List.singleton_append, List.mem_pair] at hslot
    rcases hslot with rfl | rfl
    · exact List.mem_append_left _ (List.mem_map_of_mem (List.mem_of_mem_head? hv))
    · exact List.mem_append_right _ (List.mem_map_of_mem (List.mem_of_mem_head? hw))
  · exact (Relates.refl a).mono (by simp)

/-- In `b`, the second view shows a copy of the member that the first one shows in `a`: a new record
of the declaration, which the class owns. -/
structure IsCopy (a b : Atlas) (id category : EntityId) (v w : View) : Prop where
  view : w = { v with member := w.member }
  fresh : a.members.size < w.member.number
  record : ∃ m m', a.member? v.member = some m ∧ b.member? w.member = some m' ∧ m.Mirrors m' ∧
    m'.owner = some id ∧ m'.category = some category ∧ m'.categoryRelation = some v.member ∧
    w.member ∈ b.membersNamed m.name

theorem IsCopy.mono {id category : EntityId} (h : a.IsCopy b id category v w) {touched : List Nat}
    (hrelates : b.Relates touched c) (htouched : ∀ slot ∈ touched, slot < a.members.size) :
    a.IsCopy c id category v w := by
  obtain ⟨m, m', hm, hm', hmirrors, howner, hcategory, hrelation, hnamed⟩ := h.record
  refine ⟨h.view, h.fresh, m, m', hm, ?_, hmirrors, howner, hcategory, hrelation,
    hrelates.named _ _ hnamed⟩
  rw [hrelates.untouched _ (slot_lt_of_member? hm'), hm']
  intro hin
  have hlt := htouched _ hin
  have hfresh := h.fresh
  unfold MemberId.slot at hlt
  omega

/-- The member that the first view shows is related to the one that the second shows. -/
def IsRelated (a : Atlas) (v w : View) : Prop :=
  ∃ m, a.member? v.member = some m ∧ m.categoryRelation = some w.member

theorem IsRelated.mono (h : a.IsRelated v w) {touched : List Nat} (hrelates : a.Relates touched b)
    (hnot : v.member.slot ∉ touched) : b.IsRelated v w := by
  obtain ⟨m, hm, hrelation⟩ := h
  exact ⟨m, (hrelates.untouched _ (slot_lt_of_member? hm) hnot).trans hm, hrelation⟩

variable (id category : EntityId) (isDetail : Bool)

/-- One step of adoption: a view gets a copy, and the two are related. -/
theorem adoptView_copies {touched : List Nat} (hrelates : a.Relates touched b)
    (hv : v.member.slot < a.members.size) :
    ∃ w, (b.adoptView id category isDetail v).2 = some w ∧
      b.Relates [v.member.slot] (b.adoptView id category isDetail v).1 ∧
      a.IsCopy (b.adoptView id category isDetail v).1 id category v w ∧
      (b.adoptView id category isDetail v).1.IsRelated v w := by
  obtain ⟨m, hm⟩ : ∃ m, a.member? v.member = some m := ⟨_, Array.getElem?_eq_getElem hv⟩
  obtain ⟨category', relation, hmb⟩ := hrelates.kept v.member m hm
  have hlt := slot_lt_of_member? hmb
  unfold adoptView
  rw [hmb]
  dsimp only
  generalize hcopy : ({ m with
    category := some category
    categoryRelation := some v.member
    flags.isImplementationDetail := m.flags.isImplementationDetail || isDetail } : Member) = copy
  have hadds := Relates.addMember b (some id) copy
  obtain ⟨language, flags, hhidden, heq⟩ := b.exists_addMember_eq (some id) copy
  have hnew : (b.addMember (some id) copy).2 = .ofSlot b.members.size := by rw [heq]
  have hmodifies := Relates.modifyMember (b.addMember (some id) copy).1 v.member
    (f := fun m => { m with categoryRelation := some (b.addMember (some id) copy).2 })
    fun m => ⟨m.category, _, rfl⟩
  refine ⟨_, rfl, hadds.trans hmodifies, ⟨rfl, ?_, ?_⟩, ?_⟩
  · exact Nat.lt_succ_of_le hrelates.size_le
  · refine ⟨m, { copy with id := .ofSlot b.members.size, owner := some id, language, flags }, hm, ?_,
      ?_, rfl, ?_, ?_, ?_⟩
    · rw [member?_modifyMember, hnew, MemberId.slot_ofSlot, if_neg (Nat.ne_of_lt hlt), heq,
        b.member?_push rfl, if_pos (MemberId.slot_ofSlot _)]
    · rw [← hcopy] at hhidden ⊢
      exact ⟨rfl, rfl, rfl, rfl, rfl, rfl, rfl, hhidden⟩
    · rw [← hcopy]
    · rw [← hcopy]
    · have hname : copy.name = m.name := by rw [← hcopy]
      have hnamed : (b.addMember (some id) copy).2 ∈ (b.addMember (some id) copy).1.membersNamed
          m.name := by
        rw [heq, membersNamed]
        rw [Dict.get?_append, hname]
        simp
      exact hmodifies.named _ _ hnamed
  · refine ⟨{ m with
      category := category'
      categoryRelation := some (b.addMember (some id) copy).2 }, ?_, rfl⟩
    rw [member?_modifyMember, if_pos rfl, hadds.untouched _ hlt (by simp), hmb]
    rfl

theorem adoptViews_copies {touched : List Nat} (hrelates : a.Relates touched b)
    (hviews : ∀ v ∈ views, v.member.slot < a.members.size) :
    let result := b.adoptViews id category isDetail views
    b.Relates (slots views) result.1 ∧
      List.Forall₂ (a.IsCopy result.1 id category) views result.2 ∧
      ((slots views).Nodup → List.Forall₂ result.1.IsRelated views result.2) := by
  induction views using List.reverseRecOn with
  | nil => exact ⟨.refl b, .nil, fun _ => .nil⟩
  | append_singleton views v ih =>
    obtain ⟨hloop, hcopies, hrelated⟩ := ih fun v hv => hviews v (List.mem_append_left _ hv)
    have hresult : b.adoptViews id category isDetail (views ++ [v]) =
        (((b.adoptViews id category isDetail views).1.adoptView id category isDetail v).1,
          (b.adoptViews id category isDetail views).2 ++
            ((b.adoptViews id category isDetail views).1.adoptView id category isDetail v).2.toList) := by
      unfold adoptViews
      rw [List.foldl_concat]
    rw [hresult]
    have hv := hviews v (by simp)
    obtain ⟨w, hw, hstep, hcopy, hpair⟩ :=
      adoptView_copies id category isDetail (hrelates.trans hloop) hv
    have hslots : slots (views ++ [v]) = slots views ++ [v.member.slot] := List.map_append
    rw [hw, hslots]
    have hbelow : ∀ slot ∈ [v.member.slot], slot < a.members.size := by simpa using hv
    refine ⟨hloop.trans hstep, List.rel_append (hcopies.imp fun _ _ h => h.mono hstep hbelow)
      (.cons hcopy .nil), fun hnodup => List.rel_append ?_ (.cons hpair .nil)⟩
    rw [List.nodup_append] at hnodup
    -- The pairs that are there are not touched when another member is related.
    have hapart : ∀ u ∈ views, u.member.slot ∉ [v.member.slot] := fun u hu hin =>
      hnodup.2.2 _ (List.mem_map_of_mem hu) _ hin rfl
    exact ((List.forall₂_and_left _ _).mpr ⟨hapart, hrelated hnodup.1⟩).imp
      fun _ _ h => h.2.mono hstep h.1

/-! ## Name by name -/

/-- The members under names that are new to a class are in no other place: neither under another
name, nor in the class. -/
def Apart (own : Roster) (entries : List (String × List View)) : Prop :=
  ∀ name views, (name, views) ∈ entries → own.get? name = none →
    (slots views).Nodup ∧ ∀ slot ∈ slots views,
      (∀ name' views', own.get? name' = some views' → slot ∉ slots views') ∧
      ∀ name' views', (name', views') ∈ entries → name' ≠ name → slot ∉ slots views'

/-- What becomes of an atlas and a roster when the members under some names have been taken over. -/
structure Adopted (a : Atlas) (own : Roster) (entries : List (String × List View))
    (result : Atlas × Roster × List View) : Prop where
  relates : ∃ touched, a.Relates touched result.1
  present : ∀ name views, own.get? name = some views → result.2.1.get? name = some views
  named : ∀ name, result.2.1.get? name = none ↔ own.get? name = none ∧ name ∉ entries.map (·.1)
  copied : ∀ name views, (name, views) ∈ entries → own.get? name = none → ∃ copies,
    result.2.1.get? name = some copies ∧ List.Forall₂ (a.IsCopy result.1 id category) views copies ∧
      (Apart own entries → List.Forall₂ result.1.IsRelated views copies)
  adopted : ∀ w, w ∈ result.2.2 ↔ ∃ name copies, own.get? name = none ∧
    result.2.1.get? name = some copies ∧ w ∈ copies

namespace Adopted

variable {id category}
variable {own : Roster} {entries : List (String × List View)} {result : Atlas × Roster × List View}

theorem start (a : Atlas) (own : Roster) : Adopted id category a own [] (a, own, []) where
  relates := ⟨[], .refl a⟩
  present _ _ h := h
  named name := by simp
  copied _ _ h := by simp at h
  adopted w := by
    simp only [List.not_mem_nil, false_iff, not_exists, not_and]
    intro name copies hnone hsome
    rw [hnone] at hsome
    cases hsome

theorem copied_of_relates (h : Adopted id category a own entries result)
    (hentry : entry.1 ∉ entries.map (·.1)) {touched : List Nat} {b : Atlas}
    (hstep : result.1.Relates touched b) (htouched : ∀ slot ∈ touched, slot < a.members.size ∧
      (slot ∈ slots entry.2 ∨ ∃ name views, own.get? name = some views ∧ slot ∈ slots views))
    {name : String} (hviews : (name, views) ∈ entries)
    (hnew : own.get? name = none) : ∃ copies, result.2.1.get? name = some copies ∧
      List.Forall₂ (a.IsCopy b id category) views copies ∧
      (Apart own (entries ++ [entry]) → List.Forall₂ b.IsRelated views copies) := by
  obtain ⟨copies, hcopies, hcopied, hrelated⟩ := h.copied name views hviews hnew
  refine ⟨copies, hcopies, hcopied.imp fun _ _ hcopy => hcopy.mono hstep fun slot hslot =>
    (htouched slot hslot).1, fun hapart => ?_⟩
  have hbefore : Apart own entries := fun name views hviews hnew => by
    obtain ⟨hnodup, hslots⟩ := hapart name views (List.mem_append_left _ hviews) hnew
    exact ⟨hnodup, fun slot hslot => ⟨(hslots slot hslot).1, fun name' views' hviews' =>
      (hslots slot hslot).2 name' views' (List.mem_append_left _ hviews')⟩⟩
  obtain ⟨-, hslots⟩ := hapart name views (List.mem_append_left _ hviews) hnew
  have hnot : ∀ v ∈ views, v.member.slot ∉ touched := by
    intro v hv hin
    obtain ⟨hown, hothers⟩ := hslots _ (List.mem_map_of_mem hv)
    rcases (htouched _ hin).2 with hin | ⟨name', views', hviews', hin⟩
    · refine hothers entry.1 entry.2 (by simp) (fun heq => ?_) hin
      exact hentry (heq ▸ List.mem_map_of_mem hviews)
    · exact hown name' views' hviews' hin
  exact ((List.forall₂_and_left _ _).mpr ⟨hnot, hrelated hbefore⟩).imp
    fun _ _ h => h.2.mono hstep h.1

theorem concat (h : Adopted id category a own entries result) (hentry : entry.1 ∉ entries.map (·.1))
    (hown : ∀ name views, own.get? name = some views → ∀ v ∈ views, v.member.slot < a.members.size)
    (hviews : ∀ v ∈ entry.2, v.member.slot < a.members.size) :
    Adopted id category a own (entries ++ [entry]) (adoptName id category isDetail result entry) := by
  obtain ⟨b, roster, adopted⟩ := result
  obtain ⟨name, views⟩ := entry
  obtain ⟨touched, hrelates⟩ := h.relates
  have hkeys (name' : String) : name' ∉ (entries ++ [(name, views)]).map (·.1) ↔
      name' ∉ entries.map (·.1) ∧ name' ≠ name := by
    simp
  have hbelow : ∀ slot ∈ slots views, slot < a.members.size := by
    intro slot hslot
    obtain ⟨v, hv, rfl⟩ := List.mem_map.mp hslot
    exact hviews v hv
  unfold adoptName
  dsimp only
  cases hname : own.get? name with
  | some present =>
    rw [h.present name present hname]
    have hstep := relates_relate b category present views
    refine ⟨⟨_, hrelates.trans hstep⟩, h.present, fun name' => ?_, fun name' views' hin hnew => ?_,
      h.adopted⟩
    · rw [hkeys, h.named]
      refine and_congr_right fun hnone => (and_iff_left ?_).symm
      rintro rfl
      rw [hname] at hnone
      cases hnone
    · have hin' : (name', views') ∈ entries := by
        rcases List.mem_append.mp hin with hin | hin
        · exact hin
        · obtain ⟨rfl, rfl⟩ := Prod.mk.inj (List.mem_singleton.mp hin)
          rw [hname] at hnew
          cases hnew
      refine h.copied_of_relates hentry hstep (fun slot hslot => ?_) hin' hnew
      rcases List.mem_append.mp hslot with hslot | hslot
      · obtain ⟨v, hv, rfl⟩ := List.mem_map.mp hslot
        exact ⟨hown name present hname v hv, .inr ⟨name, present, hname, hslot⟩⟩
      · exact ⟨hbelow slot hslot, .inl hslot⟩
  | none =>
    rw [(h.named name).mpr ⟨hname, hentry⟩]
    obtain ⟨hstep, hcopies, hrelated⟩ := adoptViews_copies id category isDetail hrelates hviews
    generalize b.adoptViews id category isDetail views = state at hstep hcopies hrelated
    have hget (name' : String) : (roster.insert name state.2).get? name' =
        if name' = name then some state.2 else roster.get? name' := Dict.get?_insert _ _ _ _
    refine ⟨⟨_, hrelates.trans hstep⟩, fun name' views' hold => ?_, fun name' => ?_,
      fun name' views' hin hnew => ?_, fun w => ?_⟩
    · rw [hget, if_neg, h.present name' views' hold]
      rintro rfl
      rw [hname] at hold
      cases hold
    · rw [hget]
      split
      · next heq => simp [heq]
      · next hne => rw [h.named]; simp [hne]
    · rw [hget]
      rcases List.mem_append.mp hin with hold | hlast
      · have hkey : name' ∈ entries.map (·.1) := List.mem_map_of_mem hold
        rw [if_neg fun heq : name' = name => hentry (heq ▸ hkey)]
        exact h.copied_of_relates hentry hstep (fun slot hslot => ⟨hbelow slot hslot, .inl hslot⟩)
          hold hnew
      · obtain ⟨rfl, rfl⟩ := Prod.mk.inj (List.mem_singleton.mp hlast)
        rw [if_pos rfl]
        exact ⟨_, rfl, hcopies, fun hapart => hrelated (hapart name' views' (by simp) hname).1⟩
    · rw [List.mem_append, h.adopted]
      constructor
      · rintro (⟨name', copies, hnew, hcopies', hw⟩ | hw)
        · have hne : name' ≠ name := by
            rintro rfl
            rw [(h.named name').mpr ⟨hname, hentry⟩] at hcopies'
            cases hcopies'
          exact ⟨name', copies, hnew, by rw [hget, if_neg hne, hcopies'], hw⟩
        · exact ⟨name, state.2, hname, by rw [hget, if_pos rfl], hw⟩
      · rintro ⟨name', copies, hnew, hcopies', hw⟩
        rw [hget] at hcopies'
        split at hcopies'
        · cases hcopies'
          exact .inr hw
        · exact .inl ⟨name', copies, hnew, hcopies', hw⟩

end Adopted

/-- A whole roster is adopted, name by name. -/
theorem adopted_foldl {own roster : Roster}
    (hown : ∀ name views, own.get? name = some views → ∀ v ∈ views, v.member.slot < a.members.size)
    (hroster : ∀ name views, roster.get? name = some views →
      ∀ v ∈ views, v.member.slot < a.members.size) :
    Adopted id category a own roster.toList
      (roster.toList.foldl (adoptName id category isDetail) (a, own, [])) := by
  have hviews : ∀ entry ∈ roster.toList, ∀ v ∈ entry.2, v.member.slot < a.members.size :=
    fun entry hentry => hroster _ _ ((roster.mem_toList_iff _ _).mp hentry)
  have hkeys := roster.nodup_keys
  generalize roster.toList = entries at hviews hkeys
  induction entries using List.reverseRecOn with
  | nil => exact .start a own
  | append_singleton entries entry ih =>
    rw [List.map_append, List.nodup_append] at hkeys
    rw [List.foldl_concat]
    refine (ih (fun e he => hviews e (List.mem_append_left _ he)) hkeys.1).concat isDetail ?_ hown
      (hviews entry (by simp))
    exact fun hin => hkeys.2.2 _ hin _ (List.mem_singleton_self _) rfl

/-! ## The equation of an adoption -/

theorem value_adopt {c target : ClassBody} {isLocal : Bool}
    (htarget : (a.withCategory id category c).class? id = some target) :
    let bare := (a.withCategory id category c).modifyClass id fun c => { c with roster := .empty }
    let result := c.roster.toList.foldl (adoptName id category (isLocal || c.traits.isExtension))
      (bare, target.roster, [])
    let listed := result.1.modifyClass id fun c => { c with roster := result.2.1 }
    (a.adopt id category c isLocal).value = listed.modifyEntity id fun e =>
      (result.2.2.map fun v => (v.member, v.protection)).foldl (Entity.inlining listed) e := by
  intro bare result listed
  rw [← foldl_fileInClass, List.foldl_map]
  unfold adopt
  dsimp only
  split
  · next hnone =>
    exact absurd (hnone.symm.trans htarget) (by simp)
  · next target' htarget' =>
    obtain rfl : target' = target := Option.some.inj (htarget'.symm.trans htarget)
    rw [Noted.value_foldlM]

end Atlas

end SymbolAtlas
