import SymbolAtlas.Atlas.Lookup
import SymbolAtlas.Proofs.Dict
import SymbolAtlas.Proofs.Inheritance.Outline

/-!
# What an edge brings

Whatever comes into a class along an edge, the views it had stay in their places, at most with
another ambiguity scope, and behind them stand views that were made of views of the base. The two
ways in which a view can be made differ in the protection alone.
-/

set_option autoImplicit false

namespace SymbolAtlas

theorem Text.cut_nil {pat : List Char} (h : pat ≠ []) : Text.cut pat [] = none := by
  cases pat with
  | nil => exact absurd rfl h
  | cons c cs => rfl

theorem Protection.cappedBy_eq_priv {p edge : Protection} (h : p.cappedBy edge = .priv)
    (hp : p ≠ .priv) : edge = .priv := by
  unfold cappedBy at h
  split at h
  · split at h
    · cases h
    · exact absurd h hp
  · rfl
  · exact absurd h hp

namespace View

variable {separator : String}

/-- A view as it was, or marked as ambiguous. -/
def Marked (separator : String) (v w : View) : Prop :=
  w = v ∨ w = v.markedAmbiguous separator

theorem markedAmbiguous_eq (v : View) (separator : String) :
    v.markedAmbiguous separator =
      { v with ambiguityScope := (v.markedAmbiguous separator).ambiguityScope } := by
  rw [markedAmbiguous]
  split <;> rfl

theorem Marked.eq {v w : View} (h : v.Marked separator w) :
    w = { v with ambiguityScope := w.ambiguityScope } := by
  rcases h with rfl | rfl
  · rfl
  · exact v.markedAmbiguous_eq separator

theorem markedAmbiguous_markedAmbiguous (v : View) (separator : String) :
    (v.markedAmbiguous separator).markedAmbiguous separator = v.markedAmbiguous separator := by
  by_cases h : (v.firstScope separator).isPrefixOf v.ambiguityScope.toList
  · have hmarked : v.markedAmbiguous separator = v := by
      rw [markedAmbiguous, if_pos h]
    rw [hmarked, hmarked]
  · have hmarked : v.markedAmbiguous separator = { v with
        ambiguityScope := String.ofList (v.firstScope separator) ++ v.ambiguityScope } := by
      rw [markedAmbiguous, if_neg h]
    rw [hmarked, markedAmbiguous]
    simp [firstScope]

theorem Marked.trans {u v w : View} (h : u.Marked separator v) (h' : v.Marked separator w) :
    u.Marked separator w := by
  rcases h' with rfl | rfl
  · exact h
  · rcases h with rfl | rfl
    · exact .inr rfl
    · exact .inr (u.markedAmbiguous_markedAmbiguous separator)

theorem Marked.eq_of_path {v w : View} (h : v.Marked separator w) (hseparator : separator ≠ "")
    (hpath : v.path = "") : w = v := by
  rcases h with rfl | rfl
  · rfl
  · have hne : separator.toList ≠ [] := fun h => hseparator (String.toList_eq_nil_iff.mp h)
    have hscope : v.firstScope separator = [] := by
      rw [firstScope, hpath, String.toList_empty, Text.cut_nil hne]
    rw [markedAmbiguous, hscope]
    rfl

/-- The views of `before`, each perhaps marked, followed by views with a property. -/
inductive Grown (separator : String) (P : View → Prop) : List View → List View → Prop where
  | added {new : List View} (h : ∀ t ∈ new, P t) : Grown separator P [] new
  | kept {v w : View} {before after : List View} (h : v.Marked separator w)
      (rest : Grown separator P before after) : Grown separator P (v :: before) (w :: after)

namespace Grown

variable {separator : String} {P Q : View → Prop} {before mid after : List View}

theorem refl (separator : String) (P : View → Prop) (views : List View) :
    Grown separator P views views := by
  induction views with
  | nil => exact .added (by simp)
  | cons v views ih => exact .kept (.inl rfl) ih

theorem mono (h : Grown separator P before after) (hPQ : ∀ t, P t → Q t) :
    Grown separator Q before after := by
  induction h with
  | added h => exact .added fun t ht => hPQ t (h t ht)
  | kept h _ ih => exact .kept h ih

theorem snoc (h : Grown separator P before after) {t : View} (ht : P t) :
    Grown separator P before (after ++ [t]) := by
  induction h with
  | added h =>
    refine .added fun t' ht' => ?_
    rcases List.mem_append.mp ht' with ht' | ht'
    · exact h t' ht'
    · rw [List.mem_singleton.mp ht']
      exact ht
  | kept h _ ih => exact .kept h ih

theorem mem (h : Grown separator P before after) {t : View} (ht : t ∈ after) :
    (∃ v ∈ before, v.Marked separator t) ∨ P t := by
  induction h with
  | added h => exact .inr (h t ht)
  | kept h _ ih =>
    rcases List.mem_cons.mp ht with rfl | ht
    · exact .inl ⟨_, List.mem_cons_self, h⟩
    · rcases ih ht with ⟨v, hv, hmarked⟩ | ht
      · exact .inl ⟨v, List.mem_cons_of_mem _ hv, hmarked⟩
      · exact .inr ht

theorem trans (hP : ∀ t t', P t → t.Marked separator t' → P t')
    (h : Grown separator P before mid) (h' : Grown separator P mid after) :
    Grown separator P before after := by
  induction h generalizing after with
  | added h =>
    refine .added fun t ht => ?_
    rcases h'.mem ht with ⟨v, hv, hmarked⟩ | ht
    · exact hP v t (h v hv) hmarked
    · exact ht
  | kept h _ ih =>
    cases h' with
    | kept h' rest' => exact .kept (h.trans h') (ih rest')

theorem append {own rest : List View} (h : Grown separator P (own ++ rest) after)
    (hseparator : separator ≠ "") (hpath : ∀ v ∈ own, v.path = "") :
    ∃ rest', after = own ++ rest' ∧ Grown separator P rest rest' := by
  induction own generalizing after with
  | nil => exact ⟨after, rfl, h⟩
  | cons v own ih =>
    rw [List.forall_mem_cons] at hpath
    cases h with
    | kept hmarked hrest =>
      obtain ⟨rest', rfl, hgrown⟩ := ih hrest hpath.2
      refine ⟨rest', ?_, hgrown⟩
      rw [hmarked.eq_of_path hseparator hpath.1, List.cons_append]

end Grown

end View

/-- The views of a roster under a name; none where the name is not there. -/
def Roster.under (roster : Roster) (name : String) : List View :=
  (roster.get? name).getD []

namespace Atlas

/-- The roster of a class; empty for what is not a class. -/
def rosterOf (a : Atlas) (id : EntityId) : Roster :=
  (a.roster? id).getD .empty

/-- The way along an edge into a class with a separator. -/
def passage (a : Atlas) (separator : String) (edge : BaseEdge) : Passage :=
  { edge, baseName := a.name edge.target, separator }

/-! ## The loop under one name -/

/-- The views under a name of a class that has it, after one more has come. -/
def receiveAmong (a : Atlas) (passage : Passage) (views : List View) (incoming : View) :
    List View :=
  (a.inheritAmong passage (views, []) incoming).value.1

/-- The views under a name of a class that does not have it before the edge, after one more has
come. -/
def receiveNew (a : Atlas) (passage : Passage) (views : List View) (incoming : View) : List View :=
  (a.inheritNew passage (views, []) incoming).1

/-- The views under a name after an edge, with what the class had there before it. -/
def received (a : Atlas) (passage : Passage) (present : Option (List View))
    (incoming : List View) : List View :=
  match present with
  | some views => incoming.foldl (a.receiveAmong passage) views
  | none => incoming.foldl (a.receiveNew passage) []

/-- What is entered under a name after an edge: a new name comes with views only. -/
def received? (a : Atlas) (passage : Passage) (present : Option (List View))
    (incoming : List View) : Option (List View) :=
  let views := a.received passage present incoming
  if present.isSome || !views.isEmpty then some views else none

section Loop

variable (a : Atlas) (passage : Passage) {entries : List (String × List View)}

theorem received?_nil (present : Option (List View)) : a.received? passage present [] = present := by
  cases present <;> rfl

theorem getD_received? (present : Option (List View)) (incoming : List View) :
    (a.received? passage present incoming).getD [] = a.received passage present incoming := by
  unfold received?
  dsimp only
  split
  · rfl
  · next hnone =>
    simp only [Bool.or_eq_true, not_or, Bool.not_eq_true, Bool.not_eq_false',
      Option.isSome_eq_false_iff] at hnone
    exact (List.isEmpty_iff.mp (by simpa using hnone.2)).symm

theorem fst_foldl {f : List View × Inlined → View → List View × Inlined}
    {g : List View → View → List View} (h : ∀ state s, (f state s).1 = g state.1 s)
    (incoming : List View) (state : List View × Inlined) :
    (incoming.foldl f state).1 = incoming.foldl g state.1 := by
  induction incoming generalizing state with
  | nil => rfl
  | cons s rest ih => rw [List.foldl_cons, List.foldl_cons, ih, h]

theorem fst_inheritAmong (state : List View × Inlined) (incoming : View) :
    (a.inheritAmong passage state incoming).value.1 =
      a.receiveAmong passage state.1 incoming := by
  unfold receiveAmong inheritAmong
  cases a.member? incoming.member with
  | none => rfl
  | some source =>
    simp only [Noted.value_bind]
    split <;> rfl

theorem fst_inheritNew (state : List View × Inlined) (incoming : View) :
    (a.inheritNew passage state incoming).1 = a.receiveNew passage state.1 incoming := by
  unfold receiveNew inheritNew
  cases a.member? incoming.member with
  | none => rfl
  | some source =>
    dsimp only
    split <;> rfl

variable (separator : String) (state : Roster × Inlined) (edge : BaseEdge) (name : String)

/-- What a name holds after views have come in under it. -/
theorem get?_inheritName (incoming : List View) :
    (a.inheritName passage state (name, incoming)).value.1.get? name =
      a.received? passage (state.1.get? name) incoming := by
  obtain ⟨roster, inlined⟩ := state
  unfold inheritName received? received
  dsimp only
  cases hget : roster.get? name with
  | some present =>
    have hloop := fst_foldl (a.fst_inheritAmong passage) incoming (present, inlined)
    simp only [Noted.value_bind, Noted.value_foldlM, Noted.value_pure, Dict.get?_insert, if_true,
      Option.isSome_some, Bool.true_or]
    rw [hloop]
  | none =>
    have hloop := fst_foldl (a.fst_inheritNew passage) incoming ([], inlined)
    simp only [Noted.value_pure, Option.isSome_none, Bool.false_or]
    rw [hloop]
    split
    · next hempty => rw [hget, hempty, Bool.not_true, if_neg Bool.false_ne_true]
    · next hviews =>
      rw [Bool.not_eq_true] at hviews
      rw [Dict.get?_insert, if_pos rfl, hviews, Bool.not_false, if_pos rfl]

theorem get?_inheritName_of_ne {name k : String} (hk : k ≠ name) (incoming : List View) :
    (a.inheritName passage state (name, incoming)).value.1.get? k = state.1.get? k := by
  obtain ⟨roster, inlined⟩ := state
  unfold inheritName
  dsimp only
  cases roster.get? name with
  | some present =>
    simp only [Noted.value_bind, Noted.value_pure, Dict.get?_insert, if_neg hk]
  | none =>
    simp only [Noted.value_pure]
    split
    · rfl
    · rw [Dict.get?_insert, if_neg hk]

theorem get?_foldl_inheritName_of_not_mem {name : String} (hname : name ∉ entries.map (·.1))
    (state : Roster × Inlined) :
    (entries.foldl (fun state entry => (a.inheritName passage state entry).value) state).1.get?
      name = state.1.get? name := by
  induction entries generalizing state with
  | nil => rfl
  | cons entry rest ih =>
    rw [List.map_cons, List.mem_cons, not_or] at hname
    rw [List.foldl_cons, ih hname.2]
    exact a.get?_inheritName_of_ne passage state hname.1 entry.2

/-- What a name holds after all the entries of a base have come in. -/
theorem get?_foldl_inheritName (hnodup : (entries.map (·.1)).Nodup) (state : Roster × Inlined) :
    (entries.foldl (fun state entry => (a.inheritName passage state entry).value) state).1.get?
        name =
      a.received? passage (state.1.get? name) ((entries.lookup name).getD []) := by
  induction entries generalizing state with
  | nil => exact (a.received?_nil passage _).symm
  | cons entry rest ih =>
    obtain ⟨key, incoming⟩ := entry
    rw [List.map_cons, List.nodup_cons] at hnodup
    rw [List.foldl_cons, Dict.lookup_cons_eq_ite]
    by_cases hkey : name = key
    · subst hkey
      rw [if_pos rfl, Option.getD_some, ← get?_inheritName,
        a.get?_foldl_inheritName_of_not_mem passage hnodup.1]
    · rw [if_neg hkey, ih hnodup.2, a.get?_inheritName_of_ne passage state hkey incoming]

theorem value_inheritFrom :
    (a.inheritFrom separator state edge).value =
      (a.rosterOf edge.target).toList.foldl
        (fun state entry => (a.inheritName (a.passage separator edge) state entry).value)
        state := by
  unfold inheritFrom rosterOf roster?
  cases a.class? edge.target with
  | none => rfl
  | some base => exact Noted.value_foldlM _ _ _

theorem get?_inheritFrom :
    (a.inheritFrom separator state edge).value.1.get? name =
      a.received? (a.passage separator edge) (state.1.get? name)
        ((a.rosterOf edge.target).under name) := by
  rw [value_inheritFrom]
  exact a.get?_foldl_inheritName _ name (Dict.nodup_keys _) state

theorem under_inheritFrom :
    (a.inheritFrom separator state edge).value.1.under name =
      a.received (a.passage separator edge) (state.1.get? name)
        ((a.rosterOf edge.target).under name) := by
  rw [Roster.under, get?_inheritFrom, getD_received?]

end Loop

/-! ## One view -/

/-- A view `t` of a class that was made of the view `s` of a base on its way along an edge. Where
the class had the name before, the declared protection counts, else what was left of it in the base.
While private members are left out, it is private only if the edge is and the name was there. -/
structure Arrival (a : Atlas) (passage : Passage) (isPresent : Bool) (s t : View) : Prop where
  member : t.member = s.member
  virtualness : t.virtualness = s.virtualness.through passage.edge.virtualness
  isInherited : t.isInherited = true
  path : t.path = passage.path s
  source : ∃ m, a.member? s.member = some m ∧ m.flags.isFriend = false ∧
    t.protection =
      (if isPresent then m.protection else s.protection).cappedBy passage.edge.protection
  isPrivate : a.options.extractPrivate = false → t.protection = .priv →
    isPresent = true ∧ passage.edge.protection = .priv
  ambiguousWith : ∀ id ∈ t.ambiguousWith, id ∈ s.ambiguousWith ∨ id = passage.edge.target

section One

variable (a : Atlas) (passage : Passage) (views : List View) (incoming : View)

theorem Arrival.marked {a : Atlas} {passage : Passage} {isPresent : Bool} {s t t' : View}
    {separator : String} (h : a.Arrival passage isPresent s t) (hmarked : t.Marked separator t') :
    a.Arrival passage isPresent s t' := by
  rw [hmarked.eq]
  exact ⟨h.member, h.virtualness, h.isInherited, h.path, h.source, h.isPrivate, h.ambiguousWith⟩

theorem confront_grown (source : Member) (P : View → Prop) (present : List View) :
    View.Grown passage.separator P present
      (a.confront passage incoming source present).value.2 := by
  induction present with
  | nil => exact .added (by simp [confront])
  | cons view rest ih =>
    unfold confront
    cases a.member? view.member with
    | none => exact .kept (.inl rfl) ih
    | some target =>
      rw [Noted.value_bind]
      cases (a.meeting passage incoming source view target).value with
      | covered => exact .refl _ _ _
      | hidden => exact .kept (.inl rfl) ih
      | ambiguous => exact .kept (.inr rfl) ih

/-- What can become of a view that comes among others: it is of no member that there is; it is left
out; or it comes to stand behind them. -/
theorem receiveAmong_cases :
    (a.member? incoming.member = none ∧ a.receiveAmong passage views incoming = views) ∨
    ∃ source, a.member? incoming.member = some source ∧
      let confronted := (a.confront passage incoming source views).value
      ((confronted.1.isCovered = true ∨ source.protection = .priv ∨
          source.flags.isFriend = true) ∧
        a.receiveAmong passage views incoming = confronted.2) ∨
      (confronted.1.isCovered = false ∧ source.protection ≠ .priv ∧
        source.flags.isFriend = false ∧
        a.receiveAmong passage views incoming = confronted.2 ++
          [a.passedAmong passage incoming
            (source.protection.cappedBy passage.edge.protection) confronted.1]) := by
  unfold receiveAmong inheritAmong
  cases hm : a.member? incoming.member with
  | none => exact .inl ⟨rfl, rfl⟩
  | some source =>
    refine .inr ⟨source, rfl, ?_⟩
    simp only [Noted.value_bind]
    split
    · next hskip =>
      simpa [or_assoc] using hskip
    · next hkeep =>
      refine .inr ?_
      simp only [Bool.or_eq_true, beq_iff_eq, not_or, Bool.not_eq_true] at hkeep
      exact ⟨hkeep.1.1, hkeep.1.2, hkeep.2, rfl⟩

theorem arrival_passedAmong {a : Atlas} {incoming : View} {source : Member}
    (hm : a.member? incoming.member = some source) (hfriend : source.flags.isFriend = false)
    (hprotection : source.protection ≠ .priv) (passage : Passage) (met : Meetings) :
    a.Arrival passage true incoming
      (a.passedAmong passage incoming (source.protection.cappedBy passage.edge.protection) met) := by
  have hprivate (hp : source.protection.cappedBy passage.edge.protection = .priv) :
      true = true ∧ passage.edge.protection = .priv :=
    ⟨rfl, Protection.cappedBy_eq_priv hp hprotection⟩
  have hhider : ∀ id ∈ some (incoming.ambiguousWith.getD passage.edge.target),
      id ∈ incoming.ambiguousWith ∨ id = passage.edge.target := by
    intro id hid
    cases hid
    cases incoming.ambiguousWith with
    | none => exact .inr rfl
    | some id => exact .inl rfl
  unfold passedAmong
  dsimp only
  split
  · split <;> exact
      ⟨rfl, rfl, rfl, rfl, ⟨source, hm, hfriend, rfl⟩, fun _ => hprivate, hhider⟩
  · split <;> exact
      ⟨rfl, rfl, rfl, rfl, ⟨source, hm, hfriend, rfl⟩, fun _ => hprivate, by simp⟩

theorem receiveAmong_grown : View.Grown passage.separator (a.Arrival passage true incoming) views
      (a.receiveAmong passage views incoming) := by
  rcases a.receiveAmong_cases passage views incoming with ⟨-, heq⟩ | ⟨source, hm, h⟩
  · rw [heq]
    exact .refl _ _ _
  · have hgrown := a.confront_grown passage incoming source (a.Arrival passage true incoming) views
    rcases h with ⟨-, heq⟩ | ⟨-, hprotection, hfriend, heq⟩
    · rw [heq]
      exact hgrown
    · rw [heq]
      exact hgrown.snoc (arrival_passedAmong hm hfriend hprotection passage _)

theorem receiveNew_grown : View.Grown passage.separator (a.Arrival passage false incoming) views
      (a.receiveNew passage views incoming) := by
  unfold receiveNew inheritNew
  cases hm : a.member? incoming.member with
  | none => exact .refl _ _ _
  | some source =>
    dsimp only
    split
    · exact .refl _ _ _
    · next hskip =>
      simp only [Bool.or_eq_true, Bool.and_eq_true, beq_iff_eq, not_or, not_and,
        Bool.not_eq_true] at hskip
      refine View.Grown.snoc (.refl _ _ _) ⟨rfl, rfl, rfl, rfl, ⟨source, hm, hskip.1, rfl⟩,
        fun hextract hprivate => absurd (hskip.2 hprivate) ?_, fun _ => .inl⟩
      simp [hextract]

/-! ## One name, one base -/

theorem foldl_grown {separator : String} {R : View → View → Prop}
    (hR : ∀ s t t', R s t → t.Marked separator t' → R s t')
    {f : List View → View → List View}
    (hf : ∀ views s, View.Grown separator (R s) views (f views s)) (incoming views : List View) :
    View.Grown separator (fun t => ∃ s ∈ incoming, R s t) views (incoming.foldl f views) := by
  induction incoming generalizing views with
  | nil => exact .refl _ _ _
  | cons s rest ih =>
    have hfirst : View.Grown separator (fun t => ∃ s' ∈ s :: rest, R s' t) views (f views s) :=
      (hf views s).mono fun t ht => ⟨s, List.mem_cons_self, ht⟩
    have hrest := (ih (f views s)).mono (Q := fun t => ∃ s' ∈ s :: rest, R s' t)
      fun t ⟨s', hs', ht⟩ => ⟨s', List.mem_cons_of_mem _ hs', ht⟩
    refine hfirst.trans ?_ hrest
    rintro t t' ⟨s', hs', ht⟩ hmarked
    exact ⟨s', hs', hR s' t t' ht hmarked⟩

/-- The views that are there stay, perhaps marked; those that arrive follow. -/
theorem received_grown (present : Option (List View)) (incoming : List View) :
    View.Grown passage.separator (fun t => ∃ s ∈ incoming, a.Arrival passage present.isSome s t)
      (present.getD []) (a.received passage present incoming) := by
  have hmarked (isPresent : Bool) (s t t' : View) (h : a.Arrival passage isPresent s t)
      (hmarked : t.Marked passage.separator t') : a.Arrival passage isPresent s t' :=
    h.marked hmarked
  cases present with
  | some views => exact foldl_grown (hmarked true) (a.receiveAmong_grown passage) incoming views
  | none => exact foldl_grown (hmarked false) (a.receiveNew_grown passage) incoming []

theorem inheritFrom_grown (separator : String) (state : Roster × Inlined) (edge : BaseEdge)
    (name : String) :
    View.Grown separator
      (fun t => ∃ s ∈ (a.rosterOf edge.target).under name,
        a.Arrival (a.passage separator edge) (state.1.contains name) s t)
      (state.1.under name) ((a.inheritFrom separator state edge).value.1.under name) := by
  rw [under_inheritFrom]
  exact a.received_grown (a.passage separator edge) (state.1.get? name) _

end One

end Atlas

end SymbolAtlas
