import SymbolAtlas.Proofs.Inheritance.Arrival

/-!
# The closest declaration of a name

A class may reach several members of one name. Looking the name up goes through their views once and
keeps the best so far. Whatever the order of distances and pages is, the result is the first view, in
the order of the roster, among the nearest of those whose owner has a page and can be reached: an
owner without a page takes nothing away from those that are farther off.
-/

set_option autoImplicit false

namespace SymbolAtlas.Atlas

variable {a : Atlas} {id : EntityId} {views : List View} {v : View} {k : Nat} {m : MemberId}
variable {best : Option (Nat × MemberId)}

/-- The view is of a member whose owner has a page and is a number of base edges away. -/
def IsCandidate (a : Atlas) (id : EntityId) (v : View) (k : Nat) : Prop :=
  ∃ member owner, a.member? v.member = some member ∧ member.owner = some owner ∧
    a.isLinkable owner = true ∧ (a.distance id owner).value = some k

/-- The member is that of the first view among the nearest candidates. -/
def IsClosest (a : Atlas) (id : EntityId) (views : List View) (k : Nat) (m : MemberId) : Prop :=
  ∃ before v after, views = before ++ v :: after ∧ v.member = m ∧ a.IsCandidate id v k ∧
    (∀ w ∈ before, ∀ k', a.IsCandidate id w k' → k < k') ∧
    ∀ w ∈ after, ∀ k', a.IsCandidate id w k' → k ≤ k'

theorem IsCandidate.eq {k' : Nat} (h : a.IsCandidate id v k) (h' : a.IsCandidate id v k') :
    k = k' := by
  obtain ⟨member, owner, hmember, howner, -, hk⟩ := h
  obtain ⟨member', owner', hmember', howner', -, hk'⟩ := h'
  obtain rfl := Option.some.inj (hmember.symm.trans hmember')
  obtain rfl := Option.some.inj (howner.symm.trans howner')
  exact Option.some.inj (hk.symm.trans hk')

/-! ## One more view -/

theorem IsClosest.isCandidate (h : a.IsClosest id views k m) :
    ∃ v ∈ views, a.IsCandidate id v k := by
  obtain ⟨before, v, after, rfl, -, hv, -, -⟩ := h
  exact ⟨v, by simp, hv⟩

theorem IsClosest.le (h : a.IsClosest id views k m) {w : View} (hw : w ∈ views) {k' : Nat}
    (hk' : a.IsCandidate id w k') : k ≤ k' := by
  obtain ⟨before, v, after, rfl, -, hv, hbefore, hafter⟩ := h
  rcases List.mem_append.mp hw with hw | hw
  · exact Nat.le_of_lt (hbefore w hw k' hk')
  · rcases List.mem_cons.mp hw with rfl | hw
    · exact Nat.le_of_eq (hv.eq hk')
    · exact hafter w hw k' hk'

theorem IsClosest.snoc (h : a.IsClosest id views k m)
    (hv : ∀ k', a.IsCandidate id v k' → k ≤ k') : a.IsClosest id (views ++ [v]) k m := by
  obtain ⟨before, w, after, rfl, hm, hw, hbefore, hafter⟩ := h
  refine ⟨before, w, after ++ [v], by simp, hm, hw, hbefore, fun w' hw' => ?_⟩
  rcases List.mem_append.mp hw' with hw' | hw'
  · exact hafter w' hw'
  · rw [List.mem_singleton.mp hw']
    exact hv

/-- What is known of the views that have been gone through. -/
def IsBest (a : Atlas) (id : EntityId) (views : List View) : Option (Nat × MemberId) → Prop
  | none => ∀ v ∈ views, ∀ k, ¬ a.IsCandidate id v k
  | some (k, m) => a.IsClosest id views k m

/-- The step lemma: the best of the views so far, and of one more. -/
theorem IsBest.nearer (h : a.IsBest id views best) (v : View) :
    a.IsBest id (views ++ [v]) (a.nearer id best v).value := by
  -- Passing over is right as long as the view is not nearer than the best so far.
  have hpassed (hv : ∀ k, a.IsCandidate id v k → best.all (fun b => k < b.1) = false) :
      a.IsBest id (views ++ [v]) best := by
    cases best with
    | none =>
      intro w hw k hk
      rcases List.mem_append.mp hw with hw | hw
      · exact h w hw k hk
      · rw [List.mem_singleton.mp hw] at hk
        exact Bool.noConfusion (hv k hk)
    | some b =>
      refine IsClosest.snoc h fun k hk => ?_
      simpa using hv k hk
  unfold Atlas.nearer
  cases howner : (a.member? v.member).bind (·.owner) with
  | none =>
    refine hpassed fun k ⟨member, owner, hmember, howner', _⟩ => ?_
    rw [hmember, Option.bind_some, howner'] at howner
    cases howner
  | some owner =>
    have hcandidate {k : Nat} : a.IsCandidate id v k ↔
        a.isLinkable owner = true ∧ (a.distance id owner).value = some k := by
      obtain ⟨member, hmember, howner'⟩ := Option.bind_eq_some_iff.mp howner
      constructor
      · rintro ⟨member', owner'', hmember', howner'', hpage⟩
        obtain rfl := Option.some.inj (hmember.symm.trans hmember')
        obtain rfl := Option.some.inj (howner'.symm.trans howner'')
        exact hpage
      · exact fun hpage => ⟨member, owner, hmember, howner', hpage⟩
    simp only [Noted.value_bind]
    cases hdistance : (a.distance id owner).value with
    | none =>
      refine hpassed fun k hk => ?_
      rw [(hcandidate.mp hk).2] at hdistance
      cases hdistance
    | some distance =>
      dsimp only
      split
      · next hnearer =>
        obtain ⟨hless, hpage⟩ := Bool.and_eq_true_iff.mp hnearer
        refine ⟨views, v, [], rfl, rfl, hcandidate.mpr ⟨hpage, hdistance⟩, fun w hw k hk => ?_,
          by simp⟩
        cases best with
        | none => exact absurd hk (h w hw k)
        | some b => exact Nat.lt_of_lt_of_le (by simpa using hless) (IsClosest.le h hw hk)
      · next hnearer =>
        refine hpassed fun k hk => ?_
        obtain ⟨hpage, hk⟩ := hcandidate.mp hk
        obtain rfl := Option.some.inj (hk.symm.trans hdistance)
        simpa [hpage] using hnearer

theorem IsBest.foldl (h : a.IsBest id views best) (rest : List View) :
    a.IsBest id (views ++ rest) (rest.foldl (fun best v => (a.nearer id best v).value) best) := by
  induction rest generalizing views best with
  | nil => simpa using h
  | cons v rest ih => simpa using ih (h.nearer v)

/-! ## The result -/

theorem IsClosest.unique {k' : Nat} {m' : MemberId} (h : a.IsClosest id views k m)
    (h' : a.IsClosest id views k' m') : m = m' := by
  have hle : k ≤ k' := by
    obtain ⟨w, hw, hk'⟩ := h'.isCandidate
    exact h.le hw hk'
  have hle' : k' ≤ k := by
    obtain ⟨w, hw, hk⟩ := h.isCandidate
    exact h'.le hw hk
  obtain ⟨before, v, after, rfl, rfl, hv, hbefore, -⟩ := h
  obtain ⟨before', v', after', heq, rfl, hv', hbefore', -⟩ := h'
  -- One of the two would stand before the other, and then be farther off.
  rcases List.append_eq_append_iff.mp heq with ⟨between, rfl, hrest⟩ | ⟨between, rfl, hrest⟩
  · cases between with
    | nil => exact congrArg View.member (List.cons.inj hrest).1
    | cons w between =>
      obtain rfl := (List.cons.inj hrest).1
      exact absurd (hbefore' v (by simp) k hv) (by omega)
  · cases between with
    | nil => exact congrArg View.member (List.cons.inj hrest).1.symm
    | cons w between =>
      obtain rfl := (List.cons.inj hrest).1
      exact absurd (hbefore v' (by simp) k' hv') (by omega)

theorem isBest_memberByName (a : Atlas) (id : EntityId) (name : String) :
    ∃ best, a.IsBest id ((a.rosterOf id).under name) best ∧
      (a.memberByName id name).value = best.map (·.2) := by
  unfold memberByName rosterOf Roster.under
  cases hroster : a.roster? id with
  | none => exact ⟨none, fun v hv => by simp at hv, rfl⟩
  | some roster =>
    rw [Option.bind_some, Option.getD_some]
    cases hviews : roster.get? name with
    | none => exact ⟨none, fun v hv => by simp at hv, rfl⟩
    | some views =>
      simp only [Noted.value_bind, Noted.value_foldlM, Noted.value_pure]
      have hnone : a.IsBest id [] none := fun v hv => by simp at hv
      exact ⟨_, hnone.foldl views, rfl⟩

/-- Looking a name up in a class gives nothing exactly if there is no candidate under the name.
Otherwise it gives the member of the first view, in the order of the roster, among the candidates
that are fewest edges away. -/
theorem memberByName_isClosest (a : Atlas) (id : EntityId) (name : String) :
    ((a.memberByName id name).value = none ↔
      ∀ v ∈ (a.rosterOf id).under name, ∀ k, ¬ a.IsCandidate id v k) ∧
    ∀ m, (a.memberByName id name).value = some m ↔
      ∃ k, a.IsClosest id ((a.rosterOf id).under name) k m := by
  obtain ⟨best, hbest, hvalue⟩ := a.isBest_memberByName id name
  rw [hvalue]
  cases best with
  | none =>
    refine ⟨⟨fun _ => hbest, fun _ => rfl⟩, fun m => ?_⟩
    constructor
    · intro h
      cases h
    · rintro ⟨k, hclosest⟩
      obtain ⟨v, hv, hk⟩ := hclosest.isCandidate
      exact absurd hk (hbest v hv k)
  | some best =>
    obtain ⟨k, m⟩ := best
    refine ⟨?_, fun m' => ?_⟩
    · constructor
      · intro h
        cases h
      · intro hnone
        obtain ⟨v, hv, hk⟩ := IsClosest.isCandidate hbest
        exact absurd hk (hnone v hv k)
    · constructor
      · intro h
        cases h
        exact ⟨k, hbest⟩
      · rintro ⟨k', hclosest⟩
        exact congrArg some (IsClosest.unique hbest hclosest)

end SymbolAtlas.Atlas
