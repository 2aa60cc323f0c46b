import SymbolAtlas.Proofs.Inheritance.Recursion

/-!
# How a class receives views

Under one name, an edge is a loop over the views that the base has: each is confronted with those
that are there, and comes to stand behind them or is left out. The other names, and the members that
are inlined, have no part in it.
-/

set_option autoImplicit false

namespace SymbolAtlas

namespace View.Grown

variable {separator : String} {P : View → Prop} {before after : List View}

variable (h : Grown separator P before after)

include h

theorem length_le : before.length ≤ after.length := by
  induction h with
  | added _ => simp
  | kept _ _ ih =>
    simp only [List.length_cons]
    omega

theorem getElem?_kept {i : Nat} {v : View} (hv : before[i]? = some v) :
    ∃ w, after[i]? = some w ∧ v.Marked separator w := by
  induction h generalizing i with
  | added _ => simp at hv
  | @kept v' w' before after hmarked _ ih =>
    cases i with
    | zero =>
      obtain rfl : v' = v := by simpa using hv
      exact ⟨w', rfl, hmarked⟩
    | succ i => exact ih (by simpa using hv)

theorem getElem?_new {i : Nat} {t : View} (ht : after[i]? = some t) (hi : before.length ≤ i) :
    P t := by
  induction h generalizing i with
  | added hnew => exact hnew t (List.mem_of_getElem? ht)
  | kept _ _ ih =>
    cases i with
    | zero => simp at hi
    | succ i => exact ih (by simpa using ht) (by simpa using hi)

theorem exists_marked {v : View} (hv : v ∈ before) : ∃ w ∈ after, v.Marked separator w := by
  obtain ⟨i, hi⟩ := List.mem_iff_getElem?.mp hv
  obtain ⟨w, hw, hmarked⟩ := h.getElem?_kept hi
  exact ⟨w, List.mem_of_getElem? hw, hmarked⟩

end View.Grown

namespace Atlas

theorem member_passedAmong (a : Atlas) (passage : Passage) (incoming : View) (p : Protection)
    (met : Meetings) : (a.passedAmong passage incoming p met).member = incoming.member := by
  unfold passedAmong
  dsimp only
  split <;> split <;> rfl

theorem foldl_grown_any {separator : String} {R : View → View → Prop}
    {f : List View → View → List View}
    (hf : ∀ views s, View.Grown separator (R s) views (f views s)) (incoming views : List View) :
    View.Grown separator (fun _ => True) views (incoming.foldl f views) := by
  induction incoming generalizing views with
  | nil => exact .refl _ _ _
  | cons s rest ih =>
    exact ((hf views s).mono fun _ _ => trivial).trans (fun _ _ _ _ => trivial) (ih _)

/-! ## All edges -/

/-- Later bases take no view away. -/
theorem takenOver_append_grown (a : Atlas) (separator : String) (own : Roster)
    (edges later : List BaseEdge) (name : String) :
    View.Grown separator (fun _ => True) ((a.takenOver separator own edges).1.under name)
      ((a.takenOver separator own (edges ++ later)).1.under name) := by
  induction later using List.reverseRecOn with
  | nil =>
    rw [List.append_nil]
    exact .refl _ _ _
  | append_singleton later edge ih =>
    rw [← List.append_assoc, takenOver_append]
    exact ih.trans (fun _ _ _ _ => trivial)
      ((a.inheritFrom_grown separator _ edge name).mono fun _ _ => trivial)

theorem mergeAll_eq_mergedFrom {a : Atlas} (h : a.IsMergeable) :
    a.mergeAll.value.1 = a.mergedFrom a.mergeAll.value.1 :=
  mergeAll_mergeEach_eq_mergedFrom h []

/-- The roster that a class ends with is what its edges bring of the rosters that the bases end
with. -/
theorem rosterOf_mergeAll {a : Atlas} (h : a.IsMergeable) {id : EntityId} {e : Entity}
    {c : ClassBody} (he : a.entity? id = some e) (hclass : e.class? = some c) :
    a.mergeAll.value.1.rosterOf id =
      (a.mergeAll.value.1.takenOver e.separator c.roster c.bases).1 := by
  obtain ⟨c', hc', -, hroster⟩ := class?_of_eq_mergedFrom (mergeAll_eq_mergedFrom h) he hclass
  rw [← hroster, rosterOf, roster?, hc']
  rfl

end Atlas

end SymbolAtlas
